import TimelapseManager.Encode.Filtergraph

/-!
# A graph is read as it was assembled

A filter *reads* as some parsed filter if FFmpeg's parser gives that one for it, whatever
follows in the graph.  A chain of filters that read is then read filter by filter, with the
link labels around it.

* `reads_named` and `reads_bare` are the filters written without quotes, `reads_drawtext` the
  overlays.
* `Continues` is a graph of such filters from one of its separators on; `Continues.chain` puts
  chains together and `Continues.parseFiltergraph` is what is read.
-/

namespace TimelapseManager.Encode

open QuotedTokens

/-! ## Words -/

/-- No quote, backslash, blank, bracket or separator of filters. -/
def isWordChar (char : Char) : Bool :=
  !(['[', ']', ',', ';', '\\', '\'', ' ', '\n', '\t', '\r'].contains char)

def Word (text : Text) : Prop :=
  ∀ char ∈ text, isWordChar char = true

instance (text : Text) : Decidable (Word text) :=
  List.decidableBAll (fun char => isWordChar char = true) text

theorem Word.append {first second : Text} (hFirst : Word first) (hSecond : Word second) :
    Word (first ++ second) :=
  List.forall_mem_append.mpr ⟨hFirst, hSecond⟩

theorem isBlank_of_isWordChar {char : Char} (hWord : isWordChar char = true) :
    isBlank char = false := by
  simp [isWordChar] at hWord
  simp [isBlank, hWord]

variable {text rest name : Text}

theorem Word.blanks (hWord : Word text) : ∀ char ∈ text, isBlank char = false :=
  fun char hMem => isBlank_of_isWordChar (hWord char hMem)

theorem Word.plain (hWord : Word text) : Plain argsTerm text := by
  intro char hMem
  have hChar := hWord char hMem
  simp [isWordChar] at hChar
  simp [argsTerm, hChar]

theorem Word.plain_name (hWord : Word text) (hName : '=' ∉ text) : Plain nameTerm text := by
  intro char hMem
  have hChar := hWord char hMem
  have hEqual : char ≠ '=' := fun hSame => hName (hSame ▸ hMem)
  simp [isWordChar] at hChar
  simp [nameTerm, hChar, hEqual]

/-! ## One filter -/

/-- What may follow a filter: nothing, a separator or a label. -/
def Follows : Text → Prop
  | [] => True
  | char :: _ => char = ',' ∨ char = ';' ∨ char = '['

theorem Follows.ends {isEnd : Char → Bool} (hEnd : [',', ';', '['].all isEnd)
    (hRest : Follows rest) : Ends isEnd rest := by
  cases rest with
  | nil => trivial
  | cons char rest => exact List.all_eq_true.mp hEnd char (by simpa [Follows] using hRest)

/-- The filter is read as the parsed one, whatever follows. -/
structure Reads (filter : Text) (parsed : ParsedFilter) : Prop where
  starts : ∃ char rest, filter = char :: rest ∧ char ≠ '[' ∧ isBlank char = false
  named : parsed.name ≠ []
  read : ∀ rest, Follows rest → readFilter (filter ++ rest) = (parsed, rest)

theorem word_starts {word : Text} (hNe : word ≠ []) (hWord : Word word) (rest : Text) :
    ∃ char after, word ++ rest = char :: after ∧ char ≠ '[' ∧ isBlank char = false := by
  cases word with
  | nil => exact absurd rfl hNe
  | cons char word =>
    have hChar := hWord char List.mem_cons_self
    refine ⟨char, word ++ rest, rfl, ?_, isBlank_of_isWordChar hChar⟩
    rintro rfl
    exact absurd hChar (by decide)

theorem reads_bare (hNe : name ≠ []) (hWord : Word name) (hName : '=' ∉ name) :
    Reads name ⟨name, none⟩ where
  starts := by
    have hStarts := word_starts hNe hWord []
    rwa [List.append_nil] at hStarts
  named := hNe
  read := by
    intro rest hRest
    have hToken := getToken_word hNe (hWord.plain_name hName) hWord.blanks (hRest.ends (by decide))
    unfold readFilter
    rw [hToken]
    cases rest with
    | nil => rfl
    | cons char rest => rcases hRest with rfl | rfl | rfl <;> rfl

theorem reads_args {written args : Text} (hNe : name ≠ []) (hWord : Word name) (hName : '=' ∉ name)
    (hArgs : ∀ rest, Ends argsTerm rest → getToken argsTerm (written ++ rest) = (args, rest)) :
    Reads (name ++ '=' :: written) ⟨name, some args⟩ where
  starts := word_starts hNe hWord _
  named := hNe
  read := by
    intro rest hRest
    have hEqual : Ends nameTerm ('=' :: (written ++ rest)) := rfl
    have hToken := getToken_word hNe (hWord.plain_name hName) hWord.blanks hEqual
    unfold readFilter
    simp only [List.append_assoc, List.cons_append, hToken, hArgs rest (hRest.ends (by decide))]

theorem reads_named {args : Text} (hNe : name ≠ []) (hWord : Word name) (hName : '=' ∉ name)
    (hArgsNe : args ≠ []) (hArgs : Word args) : Reads (name ++ '=' :: args) ⟨name, some args⟩ :=
  reads_args hNe hWord hName fun _ hEnds =>
    getToken_word hArgsNe hArgs.plain hArgs.blanks hEnds

/-! ## The overlays -/

/-- The options of a `drawtext`, as its own parser receives them. -/
def drawtextOptions (font text x y : Text) : Text :=
  "fontfile=".toList ++ font ++ ":text=".toList ++ text ++ ":x=".toList ++ x ++ ":y=".toList ++
    y ++ ":fontcolor=white:fontsize=24:box=1:boxcolor=black@0.4".toList

def drawtextTail (x y : Text) : Text :=
  ":x=".toList ++ x ++ ":y=".toList ++ y ++
    ":fontcolor=white:fontsize=24:box=1:boxcolor=black@0.4".toList

theorem word_drawtextTail {x y : Text} (hX : Word x) (hY : Word y) : Word (drawtextTail x y) :=
  (((Word.append (by decide) hX).append (by decide)).append hY).append (by decide)

theorem drawtextFilter_eq (font text x y : Text) :
    drawtextFilter font text x y =
      "drawtext".toList ++ '=' :: ("fontfile=".toList ++ ('\'' :: (font ++ '\'' ::
        (":text=".toList ++ ('\'' :: (text ++ '\'' :: drawtextTail x y)))))) := by
  have hFont : "drawtext=fontfile='".toList = "drawtext".toList ++ '=' :: ("fontfile=".toList ++
      ['\'']) := by decide
  have hText : "':text='".toList = '\'' :: (":text=".toList ++ ['\'']) := by decide
  have hX : "':x=".toList = '\'' :: ":x=".toList := by decide
  unfold drawtextFilter drawtextTail
  rw [hFont, hText, hX]
  simp only [List.append_assoc, List.cons_append, List.nil_append]

theorem reads_drawtext {font x y : Text} (hFont : '\'' ∉ font) (hText : '\'' ∉ text) (hX : Word x)
    (hY : Word y) :
    Reads (drawtextFilter font text x y)
      ⟨"drawtext".toList, some (drawtextOptions font text x y)⟩ := by
  rw [drawtextFilter_eq]
  refine reads_args (by decide) (by decide) (by decide) ?_
  intro rest hEnds
  have hTail := word_drawtextTail hX hY
  have hFontfile : Word "fontfile=".toList := by decide
  have hTextKey : Word ":text=".toList := by decide
  have hSkip : ∀ after, skipBlanks ("fontfile=".toList ++ after) = "fontfile=".toList ++ after :=
    fun _ => skipBlanks_cons (by decide)
  unfold getToken
  simp only [List.append_assoc, List.cons_append]
  rw [hSkip, scan_plain hFontfile.plain, scan_quoted (by decide) hFont,
    scan_plain hTextKey.plain, scan_quoted (by decide) hText, scan_plain hTail.plain,
    scan_ends hEnds]
  simp only [List.nil_append]
  rw [rdropWhile_blank hTail.blanks]
  unfold drawtextOptions drawtextTail
  simp only [List.append_assoc]

/-! ## Labels -/

def labelText (label : Text) : Text :=
  '[' :: (label ++ [']'])

def Unlabelled : Text → Prop
  | [] => True
  | char :: _ => char ≠ '[' ∧ isBlank char = false

theorem skipBlanks_unlabelled (hRest : Unlabelled rest) : skipBlanks rest = rest := by
  cases rest with
  | nil => rfl
  | cons char rest => exact skipBlanks_cons hRest.2

theorem skipLinkLabels_unlabelled (hRest : Unlabelled rest) (fuel : ℕ) :
    skipLinkLabels fuel rest = .ok rest := by
  cases rest with
  | nil => cases fuel <;> rfl
  | cons char rest =>
    unfold skipLinkLabels
    split
    next hLabel =>
      cases hLabel
      exact absurd rfl hRest.1
    · rfl

abbrev Labels (labels : List Text) : Prop :=
  ∀ label ∈ labels, label ≠ [] ∧ Word label

variable {labels : List Text}

theorem skipLinkLabels_fuel (hLabels : Labels labels) (hRest : Unlabelled rest) {fuel : ℕ}
    (hFuel : labels.length ≤ fuel) :
    skipLinkLabels fuel (labels.flatMap labelText ++ rest) = .ok rest := by
  induction labels generalizing fuel with
  | nil => exact skipLinkLabels_unlabelled hRest fuel
  | cons label labels hRec =>
    obtain ⟨⟨hNe, hWord⟩, hLater⟩ := List.forall_mem_cons.mp hLabels
    obtain ⟨fuel, rfl⟩ := Nat.exists_add_one_eq.mpr (Nat.zero_lt_of_lt hFuel)
    have hPlain : Plain (fun char => decide (char = ']')) label := by
      intro char hMem
      have hChar := hWord char hMem
      simp [isWordChar] at hChar
      simp [hChar]
    have hEnds : Ends (fun char => decide (char = ']'))
        (']' :: (labels.flatMap labelText ++ rest)) := rfl
    have hToken := getToken_word hNe hPlain hWord.blanks hEnds
    have hNext : skipBlanks (labels.flatMap labelText ++ rest) =
        labels.flatMap labelText ++ rest := by
      cases labels with
      | nil => exact skipBlanks_unlabelled hRest
      | cons next labels => exact skipBlanks_cons (by decide)
    have hText : (label :: labels).flatMap labelText ++ rest =
        '[' :: (label ++ ']' :: (labels.flatMap labelText ++ rest)) := by
      simp [labelText]
    rw [hText, skipLinkLabels]
    simp only [hToken, hNe, reduceCtorEq, or_self, if_false, List.tail_cons, hNext]
    exact hRec hLater (by simpa using hFuel)

theorem length_flatMap_labelText (labels : List Text) :
    labels.length ≤ (labels.flatMap labelText).length := by
  induction labels with
  | nil => exact Nat.le_refl _
  | cons label labels =>
    rw [List.flatMap_cons, List.length_append, List.length_cons]
    have hLabel : 1 ≤ (labelText label).length := by simp [labelText]
    omega

theorem skipLinkLabels_labels (hLabels : Labels labels) (hRest : Unlabelled rest) :
    skipLinkLabels (labels.flatMap labelText ++ rest).length (labels.flatMap labelText ++ rest) =
      .ok rest := by
  refine skipLinkLabels_fuel hLabels hRest ?_
  have hShort := length_flatMap_labelText labels
  rw [List.length_append]
  omega

/-! ## A graph of several filters -/

/-- A filter as it is written and as it is read. -/
abbrev Filter := Text × ParsedFilter

/-- The rest of a graph, from the separator after a filter on, and the filters in it.  Each has
its link labels around it. -/
inductive Continues : Text → List ParsedFilter → Prop
  | done : Continues [] []
  | filter {separator : Char} {lead trail : List Text} {filter rest : Text}
      {parsed : ParsedFilter} {others : List ParsedFilter}
      (hSeparator : separator = ',' ∨ separator = ';') (hLead : Labels lead)
      (hReads : Reads filter parsed) (hTrail : Labels trail) (hRest : Continues rest others) :
      Continues (separator :: (lead.flatMap labelText ++
        (filter ++ (trail.flatMap labelText ++ rest)))) (parsed :: others)

namespace Continues

variable {filters others : List ParsedFilter}

theorem unlabelled (hText : Continues text filters) : Unlabelled text := by
  cases hText with
  | done => trivial
  | filter hSeparator => rcases hSeparator with rfl | rfl <;> exact ⟨by decide, by decide⟩

theorem follows (hRest : Continues rest others) (trail : List Text) :
    Follows (trail.flatMap labelText ++ rest) := by
  cases trail with
  | cons label labels => exact Or.inr (Or.inr rfl)
  | nil =>
    cases hRest with
    | done => trivial
    | filter hSeparator => exact hSeparator.imp_right Or.inl

theorem length_le (hText : Continues text filters) : filters.length ≤ text.tail.length := by
  induction hText with
  | done => exact Nat.le_refl _
  | filter _ _ hReads _ _ ih =>
    obtain ⟨char, after, hStart, -, -⟩ := hReads.starts
    simp [hStart] at ih ⊢
    omega

/-- The filters are read one after the other, each between its labels. -/
theorem parse (hText : Continues text filters) {fuel : ℕ} (hFuel : filters.length ≤ fuel) :
    parseFilters fuel (skipBlanks text.tail) = .ok filters := by
  induction hText generalizing fuel with
  | done => cases fuel <;> rfl
  | @filter separator lead trail filter rest parsed others _ hLead hReads hTrail hRest ih =>
    obtain ⟨fuel, rfl⟩ := Nat.exists_add_one_eq.mpr (Nat.zero_lt_of_lt hFuel)
    have hOthers := ih (Nat.le_of_succ_le_succ hFuel)
    obtain ⟨char, after, hStart, hBracket, hBlank⟩ := hReads.starts
    have hFilter : Unlabelled (filter ++ (trail.flatMap labelText ++ rest)) := by
      rw [hStart]
      exact ⟨hBracket, hBlank⟩
    have hBefore := skipLinkLabels_labels hLead hFilter
    have hRead := hReads.read _ (hRest.follows trail)
    have hBehind := skipLinkLabels_labels hTrail hRest.unlabelled
    obtain ⟨first, others, hBody, hFirst⟩ : ∃ first others, lead.flatMap labelText ++
        (filter ++ (trail.flatMap labelText ++ rest)) = first :: others ∧
          isBlank first = false := by
      cases lead with
      | nil => exact ⟨char, _, by rw [hStart]; rfl, hBlank⟩
      | cons label labels => exact ⟨'[', _, rfl, by decide⟩
    rw [List.tail_cons]
    rw [hBody] at hBefore ⊢
    rw [skipBlanks_cons hFirst, parseFilters, hBefore]
    simp only [bind, Except.bind, hRead, hReads.named, if_false, hBehind,
      skipBlanks_unlabelled hRest.unlabelled]
    cases hRest with
    | done => rfl
    | filter hSeparator =>
      rw [List.tail_cons] at hOthers
      simp only [hSeparator, if_true, hOthers]
      rfl

theorem parseFiltergraph {graph : Text} (hGraph : Continues (',' :: graph) filters) :
    parseFiltergraph graph = .ok filters := by
  have hParse := hGraph.parse hGraph.length_le
  have hSome : filters ≠ [] := by
    cases hGraph
    exact List.cons_ne_nil _ _
  unfold Encode.parseFiltergraph
  rw [List.tail_cons] at hParse
  simp [hParse, hSome, bind, Except.bind]

/-- A comma-separated chain, with labels before its first and after its last filter. -/
theorem chain {filters : List Filter} {separator : Char} {lead trail : List Text}
    (hReads : ∀ filter ∈ filters, Reads filter.1 filter.2) (hSome : filters ≠ [])
    (hSeparator : separator = ',' ∨ separator = ';') (hLead : Labels lead) (hTrail : Labels trail)
    (hRest : Continues rest others) :
    Continues (separator :: (lead.flatMap labelText ++ ([','].intercalate (filters.map Prod.fst) ++
      (trail.flatMap labelText ++ rest)))) (filters.map Prod.snd ++ others) := by
  induction filters generalizing separator lead with
  | nil => exact absurd rfl hSome
  | cons filter filters ih =>
    obtain ⟨hFilter, hLater⟩ := List.forall_mem_cons.mp hReads
    cases filters with
    | nil => simpa using Continues.filter hSeparator hLead hFilter hTrail hRest
    | cons next filters =>
      have hNone : Labels [] := List.forall_mem_nil _
      have hNext := ih hLater (List.cons_ne_nil _ _) (Or.inl rfl) hNone
      simpa [List.intercalate_cons_cons] using
        Continues.filter hSeparator hLead hFilter hNone hNext

end Continues

end TimelapseManager.Encode
