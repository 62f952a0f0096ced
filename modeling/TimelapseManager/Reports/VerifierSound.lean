import TimelapseManager.Reports.Verifier

/-!
# What the verifier lets through

A text that `check_text` accepts holds no strong value in its exact spelling, delimited and outside
the placeholders, unless the value is one the expression cannot match.  Two kinds of values escape
it: one with an `İ`, whose lower case is longer than itself, and a name of several words that
begins with an encoded space, whose first word does not stand at a word's beginning.
-/

namespace TimelapseManager.Reports

open Regexes PyRe KeyedRows

/-- No letter or digit at the inner ends. -/
def Delimited (data : CharData) (front back : Text) : Prop :=
  (∀ char ∈ front.getLast?, data.isAlnum char = false) ∧
    ∀ char ∈ back.head?, data.isAlnum char = false

/-- The value stands in the text in its exact spelling, delimited and outside the placeholders. -/
def Verifier.Leaks (verifier : Verifier) (text value : Text) : Prop :=
  ∃ front back : List Cell,
    maskCells verifier.data verifier.pseudonymizer text = front ++ (value.map .plain ++ back) ∧
      Delimited verifier.data (front.flatMap Cell.source) (back.flatMap Cell.source)

/-- The value may get through: it is empty, it has an `İ`, or it is a name of several words with
an encoded space right before the first. -/
def Entity.Escapes (entity : Entity) : Prop :=
  entity.value = [] ∨ 'İ' ∈ entity.value ∨
    (entity.kind.isName = true ∧ 1 < (splitName entity.value).2.length ∧
      ['%', '2', '0'] <:+ (splitName entity.value).1)

variable {text : Text}

section Bounds

variable {Group : Type} {data : CharData}

theorem alnumClass_accepts (char : Char) :
    Class.accepts data true ⟨true, [.notWord, .lit '_']⟩ char = data.isAlnum char := by
  obtain ⟨hAlnum, hLower, hUpper⟩ := data.mark '_' (by decide)
  have hCased : data.isCased '_' = false := not_isCased_mark (by decide)
  by_cases hScore : char = '_'
  · subst hScore
    simp [Class.accepts, Item.literals, Item.accepts, hCased, hAlnum]
  · simp [Class.accepts, Item.literals, Item.accepts, hCased, hScore]

variable {char : Char}

theorem not_isAlnum_of_isSeparator (hChar : isSeparator char = true) :
    data.isAlnum char = false := by
  simp only [isSeparator, Bool.or_eq_true, decide_eq_true_eq] at hChar
  rcases hChar with ((hSpace | rfl) | rfl) | rfl
  · exact data.not_isAlnum_space char hSpace
  · exact (data.mark '_' (by decide)).1
  · exact (data.mark '-' (by decide)).1
  · exact (data.mark '+' (by decide)).1

theorem bounded_ends {regex : Regex Group} {core before after : Text} (hReads : regex.Reads core)
    (hBefore : ∀ char ∈ before.head?, data.isAlnum char = false)
    (hAfter : ∀ char ∈ after.head?, data.isAlnum char = false) :
    ((startOf data true).seq (regex.seq (endOf data true))).ends ⟨before, core ++ after, []⟩ ≠
      [] := by
  have hStart : (startOf data true : Regex Group).ends ⟨before, core ++ after, []⟩ =
      [⟨before, core ++ after, []⟩] := by
    cases before with
    | nil => rfl
    | cons char before =>
      have hChar : data.isAlnum char = false := hBefore char rfl
      simp [startOf, Regex.ends, alnumClass_accepts, hChar]
  have hEnd : (endOf data true : Regex Group).ends ⟨core.reverse ++ before, after, []⟩ =
      [⟨core.reverse ++ before, after, []⟩] := by
    cases after with
    | nil => rfl
    | cons char after =>
      have hChar : data.isAlnum char = false := hAfter char rfl
      simp [endOf, Regex.ends, alnumClass_accepts, hChar]
  have hBoth : ⟨core.reverse ++ before, after, []⟩ ∈
      ((startOf data true).seq (regex.seq (endOf data true))).ends ⟨before, core ++ after, []⟩ := by
    refine List.mem_flatMap.mpr ⟨_, hStart ▸ List.mem_singleton_self _, ?_⟩
    refine List.mem_flatMap.mpr ⟨_, hReads before after [], ?_⟩
    rw [hEnd]
    exact List.mem_singleton_self _
  exact List.ne_nil_of_mem hBoth

theorem Separators.last (hText : Separators text) (hEncoded : ¬['%', '2', '0'] <:+ text)
    (hLast : text.getLast? = some char) : isSeparator char = true := by
  induction hText with
  | nil => cases hLast
  | @char first rest hChar _ ih =>
    cases rest with
    | nil =>
      cases hLast
      exact hChar
    | cons next rest =>
      exact ih (fun hSuffix => hEncoded (hSuffix.trans (List.suffix_cons _ _))) hLast
  | @encoded rest _ ih =>
    cases rest with
    | nil => exact absurd List.suffix_rfl hEncoded
    | cons next rest =>
      have hRestLast : (next :: rest).getLast? = some char := by
        rw [← hLast]
        simp [List.getLast?_cons_cons]
      refine ih (fun hSuffix => hEncoded (hSuffix.trans ?_)) hRestLast
      exact ⟨['%', '2', '0'], rfl⟩

theorem Separators.head (hText : Separators text) (hHead : text.head? = some char) :
    data.isAlnum char = false := by
  cases hText with cases hHead
  | char hChar => exact not_isAlnum_of_isSeparator hChar
  | encoded => exact (data.mark '%' (by decide)).1

end Bounds

section Values

variable {entity : Entity}

theorem exists_spelled (data : CharData) (hSafe : ¬entity.Escapes) :
    ∃ lead core trail, entity.value = lead ++ (core ++ trail) ∧
      Spells data (sequence data entity.kind entity.value) core ∧
      sequence data entity.kind entity.value ≠ [] ∧
      (∀ char ∈ lead.getLast?, data.isAlnum char = false) ∧
      ∀ char ∈ trail.head?, data.isAlnum char = false := by
  simp only [Entity.Escapes, not_or] at hSafe
  obtain ⟨hNe, hDotted, hEncoded⟩ := hSafe
  simp only [sequence]
  split_ifs with hName
  · -- A name of several words: the separators at its ends are not spelled.
    obtain ⟨hKind, hWords⟩ := hName
    rw [List.length_map] at hWords
    have hSplits := splits_splitName entity.value
    have hWordDotted : ∀ word ∈ (splitName entity.value).2, 'İ' ∉ word.1 ∧ Separators word.2 := by
      intro word hWord
      refine ⟨?_, (hSplits.words word hWord).2⟩
      intro hIn
      apply hDotted
      rw [hSplits.text_eq]
      refine List.mem_append_right _ (List.mem_flatMap.mpr ⟨word, hWord, ?_⟩)
      exact List.mem_append_left _ hIn
    obtain ⟨core, trail, hJoined, hSpells, hTrail⟩ := exists_spells_nameUnits hWordDotted
    refine ⟨(splitName entity.value).1, core, trail, ?_, hSpells, ?_, ?_, ?_⟩
    · rw [← hJoined]
      exact hSplits.text_eq
    · match (splitName entity.value).2, hWords with
      | _ :: _ :: _, _ => simp [nameUnits]
    · -- A separator is no letter, unless it is the end of an encoded space.
      intro char hLast
      have hNotEncoded : ¬['%', '2', '0'] <:+ (splitName entity.value).1 :=
        fun hSuffix => hEncoded ⟨hKind, hWords, hSuffix⟩
      exact not_isAlnum_of_isSeparator (hSplits.lead.last hNotEncoded hLast)
    · exact fun char hHead => hTrail.head hHead
  · -- Anything else is spelled letter by letter, and nothing is left over at its ends.
    have hSpells : Spells data ((data.lowerText entity.value).map .char) entity.value :=
      spells_lowerText hDotted
    refine ⟨[], entity.value, [], by simp, hSpells, ?_, nofun, nofun⟩
    intro hNil
    rw [hNil] at hSpells
    generalize entity.value = value at hSpells hNe
    cases hSpells
    exact hNe rfl

end Values

section Shown

variable {data : CharData} {cells : List Cell}
  (hMarks : ∀ placeholder mark, .hidden placeholder mark ∈ cells → mark ∈ ['\x00', '\x01', '\x02'])
include hMarks

theorem not_isAlnum_shown {cell : Cell} (hMem : cell ∈ cells)
    (hPlain : ∀ char, cell = .plain char → data.isAlnum char = false) :
    data.isAlnum cell.shown = false := by
  cases cell with
  | plain char => exact hPlain char rfl
  | hidden placeholder mark =>
    have hMark := hMarks placeholder mark hMem
    exact (data.mark mark (List.mem_append_left ['%', '_', '-', '+'] hMark)).1

theorem not_isAlnum_last_shown
    (hFront : ∀ char ∈ (cells.flatMap Cell.source).getLast?, data.isAlnum char = false) :
    ∀ char ∈ (cells.map Cell.shown).getLast?, data.isAlnum char = false := by
  intro char hChar
  cases List.eq_nil_or_concat cells with
  | inl hNil =>
    rw [hNil] at hChar
    cases hChar
  | inr hConcat =>
    obtain ⟨init, cell, rfl⟩ := hConcat
    obtain rfl : cell.shown = char := by simpa using hChar
    refine not_isAlnum_shown hMarks (by simp) ?_
    rintro char rfl
    exact hFront char (by simp [Cell.source])

theorem not_isAlnum_head_shown
    (hBack : ∀ char ∈ (cells.flatMap Cell.source).head?, data.isAlnum char = false) :
    ∀ char ∈ (cells.map Cell.shown).head?, data.isAlnum char = false := by
  intro char hChar
  cases cells with
  | nil => cases hChar
  | cons cell cells =>
    obtain rfl : cell.shown = char := Option.some.inj hChar
    refine not_isAlnum_shown hMarks List.mem_cons_self ?_
    rintro char rfl
    exact hBack char rfl

end Shown

theorem search_of_accepted {verifier : Verifier} {place : String}
    (hAccepted : verifier.checkText place text = .ok ()) :
    ∀ pattern ∈ verifier.bounded verifier.strong,
      pattern.search [] (verifier.maskText text) = false := by
  have hString : verifier.checkString text = .ok () := by
    unfold Verifier.checkText at hAccepted
    split_ifs at hAccepted
    simp only [Verifier.checkStrings, Verifier.checkEach] at hAccepted
    cases hCheck : verifier.checkString text with
    | error refusal => simp [hCheck, bind, Except.bind] at hAccepted
    | ok done => rfl
  unfold Verifier.checkString at hString
  split_ifs at hString with hCut
  simp only at hString
  split_ifs at hString with hFound
  intro pattern hPattern
  have hPattern : verifier.bounded verifier.strong = some pattern := hPattern
  rw [hPattern] at hFound
  simpa using hFound

theorem not_leaks_of_accepted {verifier : Verifier} {place : String}
    (hAccepted : verifier.checkText place text = .ok ()) {entity : Entity}
    (hMem : entity ∈ verifier.strong) (hSafe : ¬entity.Escapes) :
    ¬verifier.Leaks text entity.value := by
  rintro ⟨front, back, hCells, hFront, hBack⟩
  obtain ⟨lead, core, trail, hValue, hSpells, hUnits, hLead, hTrail⟩ :=
    exists_spelled verifier.data hSafe
  have hNe : entity.value ≠ [] := fun hNil => hSafe (Or.inl hNil)
  obtain ⟨regex, hRegex, hReads⟩ : ∃ regex : Regex Empty,
      entityRegex verifier.data verifier.strong = some regex ∧ regex.Reads core := by
    have hForm : entity.value ∈ forms verifier.data entity.value := by
      simp [forms, variants, hNe]
    refine trieRegex_reads (List.mem_flatMap.mpr ⟨entity, hMem, ?_⟩) hUnits hSpells
    exact List.mem_map_of_mem hForm
  -- The masked text around the words of the value.
  have hMasked : verifier.maskText text =
      (front.map Cell.shown ++ lead) ++ (core ++ (trail ++ back.map Cell.shown)) := by
    have hPlain : (entity.value.map Cell.plain).map Cell.shown = entity.value := by
      simp [Function.comp_def, Cell.shown]
    unfold Verifier.maskText mask
    rw [hCells, List.map_append, List.map_append, hPlain, hValue]
    simp only [List.append_assoc]
  have hSearch := search_of_accepted hAccepted _ (by
    unfold Verifier.bounded
    rw [hRegex]
    rfl)
  rw [hMasked] at hSearch
  have hMarks : ∀ cells ⊆ front ++ (entity.value.map Cell.plain ++ back), ∀ placeholder mark,
      Cell.hidden placeholder mark ∈ cells → mark ∈ ['\x00', '\x01', '\x02'] := by
    intro cells hSubset placeholder mark hHidden
    have hIn := hSubset hHidden
    rw [← hCells] at hIn
    exact (issued_of_hidden hIn).2
  have hShownFront := not_isAlnum_last_shown (hMarks front (by simp)) hFront
  have hShownBack := not_isAlnum_head_shown (hMarks back (by simp)) hBack
  refine bounded_ends hReads ?_ ?_ (Regex.search_eq_false hSearch)
  · -- Before the words: the separators in front, or what is shown before the value.
    intro char hChar
    rw [List.append_nil, List.head?_reverse, List.getLast?_append] at hChar
    cases hLast : lead.getLast? with rw [hLast] at hChar
    | none => exact hShownFront char hChar
    | some last => exact hLead char (hLast.trans hChar)
  · intro char hChar
    rw [List.head?_append] at hChar
    cases hHead : trail.head? with rw [hHead] at hChar
    | none => exact hShownBack char hChar
    | some first => exact hTrail char (hHead.trans hChar)

/-! ## Tables for the examples -/

/-- A table of characters, each with another one; the characters that are not in it stay. -/
def translate (pairs : List (Char × Char)) (char : Char) : Char :=
  ((pairs.find? fun pair => pair.1 = char).map Prod.snd).getD char

theorem translate_cases (pairs : List (Char × Char)) (char : Char) :
    translate pairs char = char ∨ ∃ pair ∈ pairs, translate pairs char = pair.2 := by
  unfold translate
  cases hFind : pairs.find? fun pair => pair.1 = char with
  | none => exact Or.inl rfl
  | some pair => exact Or.inr ⟨pair, List.mem_of_find?_eq_some hFind, rfl⟩

def latinUpper : Text := "ABCDEFGHIJKLMNOPQRSTUVWXYZ".toList

def latinLower : Text := "abcdefghijklmnopqrstuvwxyz".toList

/-- The letters outside ASCII that share a case with one inside, and the sigmas. -/
def otherLetters : Text := ['İ', 'ı', 'ſ', 'Σ', 'σ', 'ς']

def lowerPairs : List (Char × Char) := ('İ', 'i') :: ('Σ', 'σ') :: latinUpper.zip latinLower

def upperPairs : List (Char × Char) :=
  ('ı', 'I') :: ('ſ', 'S') :: ('σ', 'Σ') :: ('ς', 'Σ') :: latinLower.zip latinUpper

/-- The tables of the ASCII characters and these letters. -/
def latinData : CharData where
  lower := translate lowerPairs
  upper := translate upperPairs
  extraCases char :=
    if char = 'i' then ['ı']
    else if char = 'ı' then ['i']
    else if char = 's' then ['ſ']
    else if char = 'ſ' then ['s']
    else if char = 'σ' then ['ς']
    else if char = 'ς' then ['σ']
    else []
  isAlnum char := char.isAlphanum || otherLetters.contains char
  isDecimal := Char.isDigit
  cased char := char.isAlpha || otherLetters.contains char
  caseIgnorable char := ['\x27', '.', ':', '^', '\x60', '\u0307'].contains char
  casefold char :=
    if char = 'İ' then ['i', '\u0307']
    else if char = 'ſ' then ['s']
    else if char = 'ς' then ['σ']
    else [translate lowerPairs char]
  lower_lower := by
    intro char
    have hFixed : ∀ pair ∈ lowerPairs, translate lowerPairs pair.2 = pair.2 := by decide +kernel
    cases translate_cases lowerPairs char with
    | inl hSame => rw [hSame, hSame]
    | inr hPair =>
      obtain ⟨pair, hMem, hLower⟩ := hPair
      rw [hLower, hFixed pair hMem]
  upper_lower := by
    intro char hMoved
    have hUpper : ∀ pair ∈ lowerPairs, translate upperPairs pair.2 ≠ pair.2 := by decide +kernel
    cases translate_cases lowerPairs char with
    | inl hSame => exact absurd hSame hMoved
    | inr hPair =>
      obtain ⟨pair, hMem, hLower⟩ := hPair
      rw [hLower]
      exact hUpper pair hMem
  lower_sigma := by decide +kernel
  lower_finalSigma := by decide +kernel
  upper_finalSigma := by decide +kernel
  extraCases_finalSigma := by decide
  not_isAlnum_space := by
    intro char hSpace
    have hMem := List.contains_iff_mem.mp hSpace
    rw [← Char.ofNat_toNat char]
    -- A check of each of the listed code points.
    revert hMem
    generalize char.toNat = number
    revert number
    decide +kernel
  mark := by
    -- Each mark on its own, since the characters are too many to go through.
    simp only [List.forall_mem_cons]
    refine ⟨?_, ?_, ?_, ?_, ?_, ?_, ?_, nofun⟩
    all_goals decide +kernel

/-- Of an accepted text: no strong value is left in it in its exact spelling, delimited and outside
the placeholders, exactly if none of those that may escape is. -/
theorem accepted_leaks_iff {verifier : Verifier} {place : String} {text : Text}
    (hAccepted : verifier.checkText place text = .ok ()) :
    (∀ entity ∈ verifier.strong, ¬verifier.Leaks text entity.value) ↔
      ∀ entity ∈ verifier.strong, entity.Escapes → ¬verifier.Leaks text entity.value := by
  constructor
  · intro hNone entity hMem _
    exact hNone entity hMem
  · intro hEscaping entity hMem
    by_cases hEscapes : entity.Escapes
    · exact hEscaping entity hMem hEscapes
    · exact not_leaks_of_accepted hAccepted hMem hEscapes

instance (entity : Entity) : Decidable entity.Escapes := by
  unfold Entity.Escapes
  infer_instance

/-- A camera has been replaced by its placeholder. -/
def roofVerifier : Verifier where
  data := latinData
  norm text := (latinData.casefoldText text).filter fun char => !isSeparator char
  pseudonymizer :=
    ⟨[⟨.camera, "Roof Cam".toList, false, true⟩], ["camera-1".toList], [],
      Dict.empty.set "camera-1".toList "roofcam".toList, nofun⟩
  scrubber := Scrubber.ofSecrets ["hunter22".toList]
  refuseWeak := true

theorem accepted_leaks_iff_roof :
    roofVerifier.checkText "description" "camera-1 down".toList = .ok () ∧
      ∀ entity ∈ roofVerifier.strong, ¬roofVerifier.Leaks "camera-1 down".toList entity.value := by
  have hAccepted : roofVerifier.checkText "description" "camera-1 down".toList = .ok () := by
    decide +kernel
  have hSafe : ∀ entity ∈ roofVerifier.strong, ¬entity.Escapes := by decide +kernel
  refine ⟨hAccepted, (accepted_leaks_iff hAccepted).mpr ?_⟩
  exact fun entity hMem hEscapes => absurd hEscapes (hSafe entity hMem)

/-- A verifier of one strong entity before any placeholder is issued. -/
def soleVerifier (norm : Text → Text) (kind : Kind) (value : Text) : Verifier where
  data := latinData
  norm := norm
  pseudonymizer := ⟨[⟨kind, value, false, true⟩], [], [], Dict.empty, nofun⟩
  scrubber := Scrubber.ofSecrets []
  refuseWeak := true

theorem soleVerifier_accepts {kind : Kind} {value : Text} (norm : Text → Text)
    (hPlaceholders : ((namePlaceholder latinData).finditer text).isEmpty = true)
    (hSearch : ((soleVerifier norm kind value).bounded
      [⟨kind, value, false, true⟩]).any (fun pattern => pattern.search [] text) = false)
    (hLeftover : leftover latinData text = none) :
    (soleVerifier norm kind value).checkText "title" text = .ok () := by
  have hMask : (soleVerifier norm kind value).maskText text = text := by
    have hPlain : ((text.map Cell.plain).map Cell.shown) = text := by
      simp [Function.comp_def, Cell.shown]
    exact hPlain
  have hCut : (soleVerifier norm kind value).cutShort text = false := by
    have hNone : (namePlaceholder latinData).finditer text = [] := List.isEmpty_iff.mp hPlaceholders
    unfold Verifier.cutShort
    simp [soleVerifier, hNone]
  have hStrong : (soleVerifier norm kind value).strong = [⟨kind, value, false, true⟩] := rfl
  have hString : (soleVerifier norm kind value).checkString text = .ok () := by
    have hLeft : leftover (soleVerifier norm kind value).data text = none := hLeftover
    simp only [Verifier.checkString, hCut, hMask, hStrong, hSearch, hLeft, Bool.false_eq_true,
      if_false]
  -- No weak entity is there, so no pattern of weak names either.
  have hHits : (soleVerifier norm kind value).weakHits "title" [text] = [] := rfl
  have hSecret : (soleVerifier norm kind value).scrubber.contains (encodeUtf8 text) = false := rfl
  simp only [Verifier.checkText, Verifier.checkStrings, Verifier.checkEach, Verifier.checkKeys,
    hSecret, hString, hHits, bind, Except.bind, Bool.false_eq_true, if_false, List.append_nil]

theorem soleVerifier_leaks (norm : Text → Text) (kind : Kind) (value : Text) :
    ∃ entity ∈ (soleVerifier norm kind value).strong,
      (soleVerifier norm kind value).Leaks value entity.value := by
  refine ⟨⟨kind, value, false, true⟩, List.mem_singleton_self _, [], [], ?_, nofun, nofun⟩
  simp [maskCells, soleVerifier]

/-- The lower case of `İ` is two characters long where the text has one: whatever the keys of values
are, the value itself is accepted. -/
theorem dotted_capital_accepted :
    (∀ norm, (soleVerifier norm .host "İstanbul".toList).checkText "title" "İstanbul".toList =
      .ok ()) ∧
    ∀ norm, ∃ entity ∈ (soleVerifier norm .host "İstanbul".toList).strong,
      (soleVerifier norm .host "İstanbul".toList).Leaks "İstanbul".toList entity.value := by
  constructor
  · intro norm
    refine soleVerifier_accepts norm (by decide +kernel) ?_ (by decide +kernel)
    have hSearch : ((soleVerifier id .host "İstanbul".toList).bounded
        [⟨.host, "İstanbul".toList, false, true⟩]).any
          (fun pattern => pattern.search [] "İstanbul".toList) = false := by decide +kernel
    exact hSearch
  · exact fun norm => soleVerifier_leaks norm _ _

end TimelapseManager.Reports
