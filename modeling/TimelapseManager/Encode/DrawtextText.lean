import TimelapseManager.Encode.GraphReads

/-!
# What a drawtext shows

The options of an overlay as `drawtext`'s own parser reads them, and what the value of `text`
shows: a caption shows its own characters and no function, a timestamp is one function.
-/

namespace TimelapseManager.Encode

open QuotedTokens

/-! ## Options -/

def colonTerm (char : Char) : Bool :=
  decide (char = ':')

variable {char : Char} {fuel : ℕ} {format : Text}

theorem isBlank_of_colonTerm (hTerm : colonTerm char = true) : isBlank char = false := by
  rw [of_decide_eq_true hTerm]
  decide

def ReadsValue (written value : Text) : Prop :=
  ∀ rest, Ends colonTerm rest → getToken colonTerm (written ++ rest) = (value, rest)

/-- One option: its key, its value as written and as read. -/
structure OptionItem where
  key : Text
  written : Text
  value : Text

structure OptionItem.Valid (item : OptionItem) : Prop where
  nonempty : item.key ≠ []
  key : ∀ char ∈ item.key, isKeyChar char = true
  reads : ReadsValue item.written item.value

def OptionItem.text (item : OptionItem) : Text :=
  item.key ++ '=' :: item.written

theorem isBlank_of_isKeyChar (hKey : isKeyChar char = true) : isBlank char = false := by
  by_contra hBlank
  rw [Bool.not_eq_false] at hBlank
  simp only [isBlank, Bool.or_eq_true, decide_eq_true_eq] at hBlank
  rcases hBlank with ((rfl | rfl) | rfl) | rfl <;> exact absurd hKey (by decide)

theorem parseOptions_item {item : OptionItem} (hValid : item.Valid) {rest : Text}
    (hEnds : Ends colonTerm rest) (fuel : ℕ) :
    parseOptions (fuel + 1) (item.text ++ rest) =
      (some item.key, item.value) :: parseOptions fuel rest.tail := by
  obtain ⟨char, key, hKey⟩ := List.exists_cons_of_ne_nil hValid.nonempty
  have hBlank : isBlank char = false := by
    apply isBlank_of_isKeyChar
    apply hValid.key
    rw [hKey]
    exact List.mem_cons_self
  have hText : item.text ++ rest = item.key ++ '=' :: (item.written ++ rest) := by
    simp [OptionItem.text]
  have hTake : (item.key ++ '=' :: (item.written ++ rest)).takeWhile isKeyChar = item.key := by
    rw [List.takeWhile_append_of_pos hValid.key, List.takeWhile_cons_of_neg (by decide),
      List.append_nil]
  have hDrop : (item.key ++ '=' :: (item.written ++ rest)).dropWhile isKeyChar =
      '=' :: (item.written ++ rest) := by
    rw [List.dropWhile_append_of_pos hValid.key, List.dropWhile_cons_of_neg (by decide)]
  have hEqual : skipBlanks ('=' :: (item.written ++ rest)) = '=' :: (item.written ++ rest) :=
    skipBlanks_cons (by decide)
  have hStart : skipBlanks (item.key ++ '=' :: (item.written ++ rest)) =
      item.key ++ '=' :: (item.written ++ rest) := by
    rw [hKey]
    exact skipBlanks_cons hBlank
  have hCons : item.key ++ '=' :: (item.written ++ rest) =
      char :: (key ++ '=' :: (item.written ++ rest)) := by
    rw [hKey]
    rfl
  have hValue := hValid.reads rest hEnds
  unfold colonTerm at hValue
  rw [hText]
  rw [hCons] at hStart hTake hDrop ⊢
  rw [parseOptions]
  simp only [hStart, hTake, hDrop, hEqual, hValue]

theorem parseOptions_items {items : List OptionItem} (hValid : ∀ item ∈ items, item.Valid)
    (hFuel : items.length ≤ fuel) :
    parseOptions fuel ([':'].intercalate (items.map OptionItem.text)) =
      items.map fun item => (some item.key, item.value) := by
  induction items generalizing fuel with
  | nil => cases fuel <;> rfl
  | cons item items hRec =>
    obtain ⟨fuel, rfl⟩ : ∃ less, fuel = less + 1 := ⟨fuel - 1, by
      rw [List.length_cons] at hFuel
      omega⟩
    have hItem := hValid item List.mem_cons_self
    have hRest := hRec (List.forall_mem_cons.mp hValid).2 (by simpa using hFuel)
    cases items with
    | nil =>
      have hEnds : Ends colonTerm [] := trivial
      have hLast := parseOptions_item hItem hEnds fuel
      rw [List.append_nil] at hLast
      rw [List.map_cons, List.map_nil, List.intercalate_singleton, hLast]
      cases fuel <;> rfl
    | cons next items =>
      have hEnds : Ends colonTerm
          (':' :: [':'].intercalate (next.text :: items.map OptionItem.text)) := rfl
      simp only [List.map_cons] at hRest ⊢
      rw [List.intercalate_cons_cons, List.append_assoc, List.singleton_append,
        parseOptions_item hItem hEnds, List.tail_cons, hRest]

theorem readsValue_word {word : Text} (hNe : word ≠ [] := by decide)
    (hWord : Word word := by decide) (hColon : ':' ∉ word := by decide) :
    ReadsValue word word := by
  intro rest hEnds
  refine getToken_word hNe ?_ hWord.blanks hEnds
  intro char hMem
  obtain ⟨-, hQuote, hBackslash⟩ := hWord.plain char hMem
  exact ⟨decide_eq_false fun hSame => hColon (hSame ▸ hMem), hQuote, hBackslash⟩

/-- The options of a `drawtext`, given how its font and its text are read. -/
def drawtextItems (font fontRead text textRead x y : Text) : List OptionItem :=
  [⟨"fontfile".toList, font, fontRead⟩, ⟨"text".toList, text, textRead⟩, ⟨"x".toList, x, x⟩,
    ⟨"y".toList, y, y⟩, ⟨"fontcolor".toList, "white".toList, "white".toList⟩,
    ⟨"fontsize".toList, "24".toList, "24".toList⟩, ⟨"box".toList, "1".toList, "1".toList⟩,
    ⟨"boxcolor".toList, "black@0.4".toList, "black@0.4".toList⟩]

section Drawtext

variable {font fontRead text textRead x y : Text}

theorem drawtextOptions_eq :
    drawtextOptions font text x y =
      [':'].intercalate ((drawtextItems font fontRead text textRead x y).map OptionItem.text) := by
  have hFontKey : "fontfile=".toList = "fontfile".toList ++ ['='] := by decide
  have hTextKey : ":text=".toList = ':' :: ("text".toList ++ ['=']) := by decide
  have hXKey : ":x=".toList = ':' :: ("x".toList ++ ['=']) := by decide
  have hYKey : ":y=".toList = ':' :: ("y".toList ++ ['=']) := by decide
  have hTail : ":fontcolor=white:fontsize=24:box=1:boxcolor=black@0.4".toList =
      ':' :: ("fontcolor".toList ++ '=' :: ("white".toList ++ ':' :: ("fontsize".toList ++ '=' ::
        ("24".toList ++ ':' :: ("box".toList ++ '=' :: ("1".toList ++ ':' :: ("boxcolor".toList ++
          '=' :: "black@0.4".toList))))))) := by decide
  unfold drawtextOptions
  rw [hFontKey, hTextKey, hXKey, hYKey, hTail]
  simp only [drawtextItems, List.map_cons, List.map_nil, OptionItem.text,
    List.intercalate_cons_cons, List.intercalate_singleton, List.append_assoc, List.cons_append,
    List.nil_append]

theorem validItem {key written value : Text} (hReads : ReadsValue written value)
    (hNe : key ≠ [] := by decide) (hKey : key.all isKeyChar = true := by decide) :
    OptionItem.Valid ⟨key, written, value⟩ :=
  ⟨hNe, List.all_eq_true.mp hKey, hReads⟩

theorem valid_drawtextItems (hFont : ReadsValue font fontRead) (hText : ReadsValue text textRead)
    (hX : ReadsValue x x) (hY : ReadsValue y y) :
    ∀ item ∈ drawtextItems font fontRead text textRead x y, item.Valid := by
  simp only [drawtextItems, List.forall_mem_cons]
  exact ⟨validItem hFont, validItem hText, validItem hX, validItem hY, validItem readsValue_word,
    validItem readsValue_word, validItem readsValue_word, validItem readsValue_word, nofun⟩

theorem parseFilterOptions_drawtext (hFont : ReadsValue font fontRead)
    (hText : ReadsValue text textRead) (hX : ReadsValue x x) (hY : ReadsValue y y) :
    parseFilterOptions (drawtextOptions font text x y) =
      (drawtextItems font fontRead text textRead x y).map fun item =>
        (some item.key, item.value) := by
  have hValid := valid_drawtextItems hFont hText hX hY
  have hLong : (drawtextItems font fontRead text textRead x y).length ≤
      (drawtextOptions font text x y).length := by
    have hLiteral :
        (":fontcolor=white:fontsize=24:box=1:boxcolor=black@0.4".toList).length = 53 := by
      decide
    unfold drawtextOptions
    simp only [List.length_append, hLiteral, drawtextItems, List.length_cons, List.length_nil]
    omega
  have hParse := parseOptions_items hValid hLong
  rwa [← drawtextOptions_eq] at hParse

end Drawtext

/-! ## Captions -/

/-- How a caption's character reaches `drawtext`'s expansion. -/
def drawnChar (char : Char) : Text :=
  rewrite [('\\', ['\\', '\\']), ('%', ['\\', '%'])] char

theorem decodes_captionTable (hQuote : char ≠ '\'') :
    Decodes colonTerm (rewrite captionTable char) (drawnChar char) := by
  have hEscape : Decodes colonTerm ['\\', '\\'] ['\\'] := Decodes.escape rfl (by decide)
  simp only [captionTable, drawnChar, rewrite]
  split_ifs with hBackslash hColon hPercent hPercent
  · exact hEscape.append hEscape
  · rw [hColon] at hPercent
    exact absurd hPercent (by decide)
  · rw [hColon]
    exact .escape rfl (by decide)
  · have hPlain : Plain colonTerm ['%'] := by decide
    exact hEscape.append (Decodes.plain hPlain)
  · exact .single (decide_eq_false hColon) hQuote hBackslash

theorem drawnChar_concat (char : Char) : ∃ before, drawnChar char = before ++ [char] := by
  simp only [drawnChar, rewrite]
  split_ifs with hBackslash hPercent
  · exact ⟨['\\'], by rw [hBackslash]; rfl⟩
  · exact ⟨['\\'], by rw [hPercent]; rfl⟩
  · exact ⟨[], rfl⟩

theorem rdropWhile_drawnChar (text : Text) :
    (text.flatMap drawnChar).rdropWhile isBlank = (text.rdropWhile isBlank).flatMap drawnChar := by
  induction text using List.reverseRecOn with
  | nil => rfl
  | append_singleton text char hRec =>
    rw [List.flatMap_append, List.flatMap_cons, List.flatMap_nil, List.append_nil]
    by_cases hBlank : isBlank char = true
    · have hDrawn : drawnChar char = [char] := by
        simp only [isBlank, Bool.or_eq_true, decide_eq_true_eq] at hBlank
        rcases hBlank with ((rfl | rfl) | rfl) | rfl <;> rfl
      rw [hDrawn, List.rdropWhile_concat_pos _ _ _ hBlank, hRec,
        List.rdropWhile_concat_pos _ _ _ hBlank]
    · obtain ⟨before, hDrawn⟩ := drawnChar_concat char
      rw [List.rdropWhile_concat_neg _ text _ hBlank, List.flatMap_append, List.flatMap_cons,
        List.flatMap_nil, List.append_nil, hDrawn, ← List.append_assoc,
        List.rdropWhile_concat_neg _ _ _ hBlank]

theorem expandPieces_drawnChar {text : Text} (hFuel : (text.flatMap drawnChar).length ≤ fuel) :
    expandPieces fuel (text.flatMap drawnChar) = .ok (text.map Piece.char) := by
  induction text generalizing fuel with
  | nil => cases fuel <;> rfl
  | cons char text hRec =>
    rw [List.flatMap_cons] at hFuel ⊢
    obtain ⟨before, hDrawn⟩ := drawnChar_concat char
    have hLess : (text.flatMap drawnChar).length < fuel := by
      rw [hDrawn] at hFuel
      simp only [List.length_append, List.length_singleton] at hFuel
      omega
    obtain ⟨fuel, rfl⟩ := Nat.exists_eq_add_one.mpr (Nat.zero_lt_of_lt hLess)
    have hRest := hRec (Nat.lt_succ_iff.mp hLess)
    by_cases hBackslash : char = '\\'
    · rw [hBackslash]
      simp [drawnChar, rewrite, expandPieces, hRest]
    · by_cases hPercent : char = '%'
      · rw [hPercent]
        simp [drawnChar, rewrite, expandPieces, hRest]
      · simp [drawnChar, rewrite, expandPieces, hBackslash, hPercent, hRest]

/-- What a caption shows: its characters without the blanks around them. -/
def shownCaption (text : Text) : Text :=
  ((plainCaption text).dropWhile (· = ' ')).rdropWhile (· = ' ')

theorem plainCaption_chars {text : Text} (hMem : char ∈ plainCaption text) :
    char ≠ '\'' ∧ (isBlank char = decide (char = ' ')) := by
  obtain ⟨source, -, hShown⟩ := List.mem_flatMap.mp hMem
  obtain ⟨-, hQuote, hBlank⟩ := isShown_of_mem_captionChar hShown
  refine ⟨hQuote, ?_⟩
  rw [Bool.eq_iff_iff, decide_eq_true_iff]
  exact ⟨hBlank, fun hSame => by rw [hSame]; decide⟩

theorem dropWhile_congr {text : Text} {first second : Char → Bool}
    (hSame : ∀ char ∈ text, first char = second char) :
    text.dropWhile first = text.dropWhile second := by
  induction text with
  | nil => rfl
  | cons char text hRec =>
    have hRest := hRec (List.forall_mem_cons.mp hSame).2
    rw [List.dropWhile_cons, List.dropWhile_cons, hSame char List.mem_cons_self, hRest]

theorem trim_eq {text : Text} (hBlanks : ∀ char ∈ text, isBlank char = decide (char = ' ')) :
    (skipBlanks text).rdropWhile isBlank = (text.dropWhile (· = ' ')).rdropWhile (· = ' ') := by
  have hFront : skipBlanks text = text.dropWhile (· = ' ') := dropWhile_congr hBlanks
  unfold List.rdropWhile
  rw [hFront, dropWhile_congr]
  intro char hMem
  rw [List.mem_reverse] at hMem
  exact hBlanks char ((List.dropWhile_sublist _).mem hMem)

theorem quote_notMem_escapeDrawtext (text : Text) : '\'' ∉ escapeDrawtext text := by
  rw [escapeDrawtext_eq]
  exact notMem_rewrite (by decide) fun _ hMem => (plainCaption_chars hMem).1

theorem readsValue_caption (text : Text) :
    ReadsValue (escapeDrawtext text) ((shownCaption text).flatMap drawnChar) := by
  intro rest hEnds
  rw [escapeDrawtext_eq, getToken_flatMap
    (fun char hMem => decodes_captionTable (plainCaption_chars hMem).1)
    (keepsBlanks_rewrite (by decide) _) (fun _ => isBlank_of_colonTerm) hEnds, rdropWhile_drawnChar,
    trim_eq fun _ hMem => (plainCaption_chars hMem).2]
  rfl

theorem expandText_caption (text : Text) :
    expandText ((shownCaption text).flatMap drawnChar) = .ok ((shownCaption text).map Piece.char) :=
  expandPieces_drawnChar (Nat.le_refl _)

/-! ## Font paths -/

theorem decodes_pathTable (hQuote : char ≠ '\'') :
    Decodes colonTerm (rewrite pathTable char) [char] := by
  simp only [pathTable, rewrite]
  split_ifs with hBackslash hColon
  · rw [hBackslash]
    exact .escape rfl (by decide)
  · rw [hColon]
    exact .escape rfl (by decide)
  · exact .single (decide_eq_false hColon) hQuote hBackslash

theorem isPathChar_quote {path : Text} (hMem : char ∈ path.filter isPathChar) : char ≠ '\'' := by
  have hPath := (List.mem_filter.mp hMem).2
  rintro rfl
  exact absurd hPath (by decide)

theorem readsValue_path (path : Text) :
    ReadsValue (escapePathForFilter path)
      (((skipBlanks (path.filter isPathChar)).flatMap fun char => [char]).rdropWhile isBlank) := by
  intro rest hEnds
  rw [escapePathForFilter_eq, getToken_flatMap
    (fun char hMem => decodes_pathTable (isPathChar_quote hMem))
    (keepsBlanks_rewrite (by decide) _) (fun _ => isBlank_of_colonTerm) hEnds]

theorem quote_notMem_escapePath (path : Text) : '\'' ∉ escapePathForFilter path := by
  rw [escapePathForFilter_eq]
  exact notMem_rewrite (by decide) fun _ hMem => isPathChar_quote hMem

/-! ## Timestamps -/

def writtenFormatChar : Char → Text :=
  rewrite [(':', ['\\', '\\', '\\', ':'])]

/-- How a format's character reaches `drawtext`'s expansion. -/
def drawnFormatChar : Char → Text :=
  rewrite [(':', ['\\', ':'])]

def argumentTerm (char : Char) : Bool :=
  char = ':' || char = '\x7d'

section Format

variable {char : Char}

theorem formatChar_spec (hFormat : isFormatChar char = true) :
    char ≠ '\'' ∧ char ≠ '\\' ∧ char ≠ '\x7d' ∧ isBlank char = decide (char = ' ') := by
  have hNot : ∀ other, isFormatChar other = false → char ≠ other := by
    rintro other hOther rfl
    rw [hFormat] at hOther
    cases hOther
  refine ⟨hNot _ rfl, hNot _ rfl, hNot _ rfl, ?_⟩
  simp [isBlank, hNot '\n' rfl, hNot '\t' rfl, hNot '\r' rfl]

theorem decodes_writtenFormatChar (hFormat : isFormatChar char = true) :
    Decodes colonTerm (writtenFormatChar char) (drawnFormatChar char) := by
  obtain ⟨hQuote, hBackslash, -, -⟩ := formatChar_spec hFormat
  have hEscape : Decodes colonTerm ['\\', '\\'] ['\\'] := Decodes.escape rfl (by decide)
  have hColon : Decodes colonTerm ['\\', ':'] [':'] := Decodes.escape rfl (by decide)
  simp only [writtenFormatChar, drawnFormatChar, rewrite]
  split_ifs with hSame
  · exact hEscape.append hColon
  · exact .single (decide_eq_false hSame) hQuote hBackslash

theorem decodes_drawnFormatChar (hFormat : isFormatChar char = true) :
    Decodes argumentTerm (drawnFormatChar char) [char] := by
  obtain ⟨hQuote, hBackslash, hBrace, -⟩ := formatChar_spec hFormat
  simp only [drawnFormatChar, rewrite]
  split_ifs with hSame
  · rw [hSame]
    exact .escape rfl (by decide)
  · refine .single ?_ hQuote hBackslash
    simp [argumentTerm, hSame, hBrace]

end Format

/-- The text of a timestamp, as it reaches the expansion. -/
def drawnTimestamp (format : Text) : Text :=
  "%\x7bpts:gmtime:0:".toList ++ format.flatMap drawnFormatChar ++ ['\x7d']

theorem decodes_timestampStart :
    Decodes colonTerm "%\x7bpts\\:gmtime\\:0\\:".toList "%\x7bpts:gmtime:0:".toList := by
  have hColon : Decodes colonTerm ['\\', ':'] [':'] := Decodes.escape rfl (by decide)
  have hPts : Plain colonTerm "%\x7bpts".toList := by decide
  have hGmtime : Plain colonTerm "gmtime".toList := by decide
  have hZero : Plain colonTerm "0".toList := by decide
  exact (Decodes.plain hPts).append (hColon.append ((Decodes.plain hGmtime).append
    (hColon.append ((Decodes.plain hZero).append hColon))))

theorem readsValue_timestamp (hFormat : ∀ char ∈ format, isFormatChar char = true) :
    ReadsValue (timestampExpression (format.flatMap writtenFormatChar))
      (drawnTimestamp format) := by
  have hBody := Decodes.flatMap fun char hMem => decodes_writtenFormatChar (hFormat char hMem)
  have hBrace : Plain colonTerm ['\x7d'] := by decide
  have hAll : Decodes colonTerm (timestampExpression (format.flatMap writtenFormatChar))
      (drawnTimestamp format) := by
    exact (decodes_timestampStart.append hBody).append (Decodes.plain hBrace)
  intro rest hEnds
  have hSkip : skipBlanks (timestampExpression (format.flatMap writtenFormatChar) ++ rest) =
      timestampExpression (format.flatMap writtenFormatChar) ++ rest := by
    unfold timestampExpression
    exact skipBlanks_cons (by decide)
  have hFirm : ¬isBlank '\x7d' = true := by decide
  rw [getToken_decodes hAll hSkip hEnds]
  unfold drawnTimestamp
  rw [List.rdropWhile_concat_neg _ _ _ hFirm]

theorem readArguments_word {word rest after : Text} {arguments : List Text}
    (hRest : readArguments fuel rest = .ok (arguments, after)) (hNe : word ≠ [] := by decide)
    (hPlain : Plain argumentTerm word := by decide) (hWord : Word word := by decide) :
    readArguments (fuel + 1) (word ++ ':' :: rest) = .ok (word :: arguments, after) := by
  have hEnds : Ends argumentTerm (':' :: rest) := rfl
  have hToken := getToken_word hNe hPlain hWord.blanks hEnds
  unfold argumentTerm at hToken
  have hColon : ¬(':' : Char) = '\x7d' := by decide
  simp only [readArguments, hToken, hColon, if_false, hRest]
  rfl

theorem readArguments_format (hFormat : ∀ char ∈ format, isFormatChar char = true) (fuel : ℕ) :
    readArguments (fuel + 1) (format.flatMap drawnFormatChar ++ ['\x7d']) =
      .ok ([(format.dropWhile (· = ' ')).rdropWhile (· = ' ')], []) := by
  have hTerm : ∀ char, argumentTerm char = true → isBlank char = false := by
    intro char hTerm
    simp only [argumentTerm, Bool.or_eq_true, decide_eq_true_eq] at hTerm
    rcases hTerm with rfl | rfl <;> decide
  have hEnds : Ends argumentTerm ['\x7d'] := rfl
  have hToken := getToken_flatMap (fun char hMem => decodes_drawnFormatChar (hFormat char hMem))
    (keepsBlanks_rewrite (by decide) format) hTerm hEnds
  rw [List.flatMap_singleton', trim_eq fun char hMem => (formatChar_spec (hFormat char hMem)).2.2.2]
    at hToken
  unfold argumentTerm at hToken
  simp only [readArguments, hToken, if_true]

theorem expandText_timestamp (hFormat : ∀ char ∈ format, isFormatChar char = true) :
    expandText (drawnTimestamp format) =
      .ok [Piece.function ["pts".toList, "gmtime".toList, "0".toList,
        (format.dropWhile (· = ' ')).rdropWhile (· = ' ')]] := by
  have hStart : "%\x7bpts:gmtime:0:".toList = '%' :: '\x7b' :: ("pts".toList ++ ':' ::
      ("gmtime".toList ++ ':' :: ("0".toList ++ [':']))) := by decide
  obtain ⟨rest, hRest⟩ : ∃ rest, rest = "pts".toList ++ ':' :: ("gmtime".toList ++ ':' ::
      ("0".toList ++ ':' :: (format.flatMap drawnFormatChar ++ ['\x7d']))) := ⟨_, rfl⟩
  have hText : drawnTimestamp format = '%' :: '\x7b' :: rest := by
    unfold drawnTimestamp
    rw [hStart, hRest]
    simp only [List.append_assoc, List.cons_append, List.nil_append]
  have hArguments : ∀ fuel, readArguments (fuel + 1 + 1 + 1 + 1) rest =
      .ok (["pts".toList, "gmtime".toList, "0".toList,
        (format.dropWhile (· = ' ')).rdropWhile (· = ' ')], []) := by
    intro fuel
    rw [hRest]
    refine readArguments_word ?_
    refine readArguments_word ?_
    refine readArguments_word ?_
    exact readArguments_format hFormat fuel
  have hLong : 3 ≤ rest.length := by
    rw [hRest]
    simp only [List.length_append, List.length_cons]
    omega
  obtain ⟨fuel, hFuel⟩ : ∃ fuel, rest.length + 1 = fuel + 1 + 1 + 1 + 1 :=
    ⟨rest.length - 3, by omega⟩
  unfold expandText
  rw [hText]
  simp only [List.length_cons, expandPieces, hFuel, hArguments fuel]
  rfl

end TimelapseManager.Encode
