import Mathlib.Data.List.Sort
import TimelapseManager.Lib.PyRe
import TimelapseManager.Reports.Redaction

/-!
# One expression for the values that must not appear

Every form of every entity becomes a sequence of units, the sequences become a trie, and the trie
becomes one regular expression.

* `splitName` is the split of a name into words, which keeps the separators it drops.
* `Children` is the trie: the entries of one node in the order of their insertion.
* `Spells` relates a text to a sequence of units; `trieRegex_reads` says that the expression matches
  what any of its sequences spells.
-/

namespace TimelapseManager.Reports

open Regexes PyRe

inductive Kind
  | user
  | project
  | camera
  | host
  | domain
  | ip
  | email
  | directory
  | path
  deriving DecidableEq

/-- One identifying value. -/
structure Entity where
  kind : Kind
  value : Text
  weak : Bool
  refusable : Bool

/-- `kind in _NAME_KINDS`. -/
def Kind.isName (kind : Kind) : Bool :=
  kind = .user || kind = .project || kind = .camera

/-- `html.escape`. -/
def htmlEscape (quotes : Bool) (text : Text) : Text :=
  text.flatMap fun char =>
    if char = '&' then "&amp;".toList
    else if char = '<' then "&lt;".toList
    else if char = '>' then "&gt;".toList
    else if quotes = true ∧ char = '\x22' then "&quot;".toList
    else if quotes = true ∧ char = '\x27' then "&#x27;".toList
    else [char]

/-- `_forms`. -/
def forms (data : CharData) (value : Text) : List Text :=
  ([value, data.casefoldText value].flatMap fun base =>
    variants base ++ [htmlEscape true base, htmlEscape false base]).filter fun form => form ≠ []

/-- A unit of a sequence: a character, or `_SEP_TOKEN`. -/
inductive TrieUnit
  | char (char : Char)
  | separator
  deriving DecidableEq

/-- A character that separates the words of a name. -/
def isSeparator (char : Char) : Bool :=
  PyText.isSpace char || char = '_' || char = '-' || char = '+'

/-- `re.split(r"[\s_\-]+|%20|\+", form)`: the separators in front, and the words, each with the
separators behind it.  A run of separators splits where each of them does, and the empty words
between them are dropped. -/
def splitName : Text → Text × List (Text × Text)
  | [] => ([], [])
  | '%' :: '2' :: '0' :: rest =>
    let (lead, words) := splitName rest
    ('%' :: '2' :: '0' :: lead, words)
  | char :: rest =>
    let (lead, words) := splitName rest
    if isSeparator char then (char :: lead, words)
    else
      match lead, words with
      | [], (word, behind) :: words => ([], (char :: word, behind) :: words)
      | lead, words => ([], ([char], lead) :: words)

/-- The units of the words of a name. -/
def nameUnits (data : CharData) : List Text → List TrieUnit
  | [] => []
  | [word] => (data.lowerText word).map .char
  | word :: words => (data.lowerText word).map .char ++ .separator :: nameUnits data words

/-- `_sequence`. -/
def sequence (data : CharData) (kind : Kind) (form : Text) : List TrieUnit :=
  let words := (splitName form).2.map Prod.fst
  if kind.isName = true ∧ 1 < words.length then nameUnits data words
  else (data.lowerText form).map .char

/-- The entries of a node of the trie: each with whether a sequence ends there, and the entries
below it. -/
inductive Children
  | nil
  | cons (unit : TrieUnit) (ends : Bool) (below others : Children)

namespace Children

/-- A sequence on its own. -/
def chain (unit : TrieUnit) : List TrieUnit → Children
  | [] => cons unit true nil nil
  | next :: rest => cons unit false (chain next rest) nil

/-- Enters a sequence, given by its first unit and the rest. -/
def insert (unit : TrieUnit) (rest : List TrieUnit) : Children → Children
  | nil => chain unit rest
  | cons other ends below others =>
    if other = unit then
      match rest with
      | [] => cons other true below others
      | next :: rest => cons other ends (insert next rest below) others
    else cons other ends below (insert unit rest others)

/-- A sequence has been entered. -/
def has (unit : TrieUnit) (rest : List TrieUnit) : Children → Bool
  | nil => false
  | cons other ends below others =>
    (other = unit && match rest with
      | [] => ends
      | next :: rest => has next rest below) || has unit rest others

end Children

variable {Group : Type}

/-- `_NAME_SEPARATOR`. -/
def nameSeparator (data : CharData) : Regex Group :=
  .star (.alt
    (.one (Class.accepts data true ⟨false, [.space, .lit '_', .lit '-', .lit '+']⟩))
    (.concat (['%', '2', '0'].map (ignoring data))))

/-- `_unit_regex`. -/
def unitRegex (data : CharData) : TrieUnit → Regex Group
  | .char char => ignoring data char
  | .separator => nameSeparator data

/-- The order of the branches: by character, with the separator last. -/
def TrieUnit.le : TrieUnit → TrieUnit → Bool
  | .char first, .char second => first ≤ second
  | .char _, .separator => true
  | .separator, .char _ => false
  | .separator, .separator => true

/-- What the text that `_emit` makes is read as: the expression of a unit, and the ways in which
expressions are put together. -/
structure Emitter (Expr : Type) where
  unit : TrieUnit → Expr
  empty : Expr
  seq : Expr → Expr → Expr
  oneOf : Expr → List Expr → Expr
  opt : Expr → Expr

namespace Emitter

variable {Expr : Type} (emitter : Emitter Expr)

/-- The end of `_emit`: the branches in order, the separator last; nothing without a branch. -/
def alternation (branches : List (TrieUnit × Expr)) : Option Expr :=
  match branches.insertionSort fun first second => first.1.le second.1 with
  | [] => none
  | first :: others => some (emitter.oneOf first.2 (others.map Prod.snd))

/-- What follows a unit: the branches below it, optional where a sequence ends at it. -/
def tail (ends : Bool) (below : Option Expr) : Expr :=
  match below with
  | none => emitter.empty
  | some rest => if ends then emitter.opt rest else rest

/-- The branches of `_emit`.  A chain of single children is one run of units there; as a
concatenation it is the same. -/
def branches : Children → List (TrieUnit × Expr)
  | .nil => []
  | .cons unit ends below others =>
    (unit, emitter.seq (emitter.unit unit)
      (emitter.tail ends (emitter.alternation (branches below)))) :: branches others

/-- `_emit`; the empty text is no expression. -/
def emit (children : Children) : Option Expr :=
  emitter.alternation (emitter.branches children)

end Emitter

/-- The trie of the sequences. -/
def trieOf (sequences : List (List TrieUnit)) : Children :=
  sequences.foldl (fun root sequence =>
    match sequence with
    | [] => root
    | unit :: rest => root.insert unit rest) Children.nil

/-- An expression for the matcher, without regard to case. -/
def regexEmitter (data : CharData) : Emitter (Regex Group) where
  unit := unitRegex data
  empty := .empty
  seq := .seq
  oneOf := .oneOf
  opt := .opt

/-- `_trie_regex`. -/
def trieRegex (data : CharData) (sequences : List (List TrieUnit)) : Option (Regex Group) :=
  (regexEmitter data).emit (trieOf sequences)

/-- `_entity_regex`. -/
def entityRegex (data : CharData) (entities : List Entity) : Option (Regex Group) :=
  trieRegex data (entities.flatMap fun entity =>
    (forms data entity.value).map (sequence data entity.kind))

/-! ## The separators of a name -/

/-- A run of separators. -/
inductive Separators : Text → Prop
  | nil : Separators []
  | char {char : Char} {rest : Text} (hChar : isSeparator char = true) (hRest : Separators rest) :
      Separators (char :: rest)
  | encoded {rest : Text} (hRest : Separators rest) : Separators ('%' :: '2' :: '0' :: rest)

variable {text : Text}

section Names

variable {data : CharData}

theorem not_isCased_mark {char : Char}
    (hMem : char ∈ ['\x00', '\x01', '\x02', '%', '_', '-', '+']) : data.isCased char = false := by
  obtain ⟨-, hLower, hUpper⟩ := data.mark char hMem
  simp [CharData.isCased, hLower, hUpper]

theorem separatorClass_accepts {char : Char} (hChar : isSeparator char = true) :
    Class.accepts data true ⟨false, [.space, .lit '_', .lit '-', .lit '+']⟩ char = true := by
  have hScore : data.isCased '_' = false := not_isCased_mark (by decide)
  have hDash : data.isCased '-' = false := not_isCased_mark (by decide)
  have hPlus : data.isCased '+' = false := not_isCased_mark (by decide)
  simpa [Class.accepts, Item.literals, Item.accepts, hScore, hDash, hPlus, isSeparator,
    or_assoc] using hChar

theorem nameSeparator_reads (hText : Separators text) :
    (nameSeparator data : Regex Group).Reads text := by
  induction hText with
  | nil => exact Regex.Reads.star_nil
  | @char char rest hChar _ ih =>
    have hOne : (Regex.one (Class.accepts data true
        ⟨false, [.space, .lit '_', .lit '-', .lit '+']⟩) : Regex Group).Reads [char] :=
      Regex.Reads.one (separatorClass_accepts hChar)
    exact Regex.Reads.star_cons hOne.alt_left (by simp) ih
  | @encoded rest _ ih =>
    have hLiteral : ∀ char, (ignoring data char : Regex Group).Reads [char] := by
      intro char
      exact Regex.Reads.one (matchesIgnoringCase_self char)
    have hEncoded : (Regex.concat (['%', '2', '0'].map (ignoring data)) : Regex Group).Reads
        ['%', '2', '0'] :=
      (hLiteral '%').seq ((hLiteral '2').seq ((hLiteral '0').seq Regex.Reads.empty))
    exact Regex.Reads.star_cons hEncoded.alt_right (by simp) ih

/-- The words of a name with the separators behind them, as they stand. -/
def joined (words : List (Text × Text)) : Text :=
  words.flatMap fun word => word.1 ++ word.2

/-- A name and its parts: put together again they are the name, and between the words there are
separators. -/
structure Splits (text : Text) (parts : Text × List (Text × Text)) : Prop where
  text_eq : text = parts.1 ++ joined parts.2
  lead : Separators parts.1
  words : ∀ word ∈ parts.2, word.1 ≠ [] ∧ Separators word.2

theorem splits_splitName (text : Text) : Splits text (splitName text) := by
  fun_induction splitName text with
  | case1 => exact ⟨rfl, Separators.nil, by simp⟩
  | case2 rest lead words hSplit ih =>
    rw [hSplit] at ih
    refine ⟨?_, Separators.encoded ih.lead, ih.words⟩
    rw [ih.text_eq]
    rfl
  | case3 char rest _ lead words hSplit hSeparator ih =>
    rw [hSplit] at ih
    refine ⟨?_, Separators.char hSeparator ih.lead, ih.words⟩
    rw [ih.text_eq]
    rfl
  | case4 char rest _ _ word behind words hSplit ih =>
    -- The character continues the first word.
    rw [hSplit] at ih
    refine ⟨?_, Separators.nil, ?_⟩
    · rw [ih.text_eq]
      rfl
    · obtain ⟨hWord, hRest⟩ := List.forall_mem_cons.mp ih.words
      exact List.forall_mem_cons.mpr ⟨⟨by simp, hWord.2⟩, hRest⟩
  | case5 char rest _ _ lead words _ hSplit ih =>
    -- It is a word of its own, before separators or at the end.
    rw [hSplit] at ih
    refine ⟨?_, Separators.nil, ?_⟩
    · rw [ih.text_eq]
      simp [joined]
    · exact List.forall_mem_cons.mpr ⟨⟨by simp, ih.lead⟩, ih.words⟩

/-! ## What a sequence of units spells -/

/-- A text is made of parts that the units match, one after the other. -/
inductive Spells (data : CharData) : List TrieUnit → Text → Prop
  | nil : Spells data [] []
  | cons {unit : TrieUnit} {units : List TrieUnit} {front back : Text}
      (hUnit : ∀ Group : Type, (unitRegex data unit : Regex Group).Reads front)
      (hUnits : Spells data units back) : Spells data (unit :: units) (front ++ back)

theorem Spells.append {first second : List TrieUnit} {front back : Text}
    (hFirst : Spells data first front) (hSecond : Spells data second back) :
    Spells data (first ++ second) (front ++ back) := by
  induction hFirst with
  | nil => exact hSecond
  | cons hUnit _ ih =>
    rw [List.append_assoc]
    exact Spells.cons hUnit ih

theorem spells_of_matches {literals : Text}
    (hMatches : List.Forall₂ (fun literal char => data.matchesIgnoringCase literal char = true)
      literals text) : Spells data (literals.map .char) text := by
  induction hMatches with
  | nil => exact Spells.nil
  | @cons literal char literals text hChar _ ih =>
    have hUnit : ∀ Group : Type, (unitRegex data (.char literal) : Regex Group).Reads [char] :=
      fun _ => Regex.Reads.one hChar
    exact Spells.cons hUnit ih

theorem spells_lowerText (hDotted : 'İ' ∉ text) :
    Spells data ((data.lowerText text).map .char) text :=
  spells_of_matches (lowerText_matches hDotted)

/-- The words of a name are spelled with the separators between them, and those behind the last
one are left. -/
theorem exists_spells_nameUnits {words : List (Text × Text)}
    (hWords : ∀ word ∈ words, 'İ' ∉ word.1 ∧ Separators word.2) :
    ∃ core trail, joined words = core ++ trail ∧
      Spells data (nameUnits data (words.map Prod.fst)) core ∧ Separators trail := by
  induction words with
  | nil => exact ⟨[], [], rfl, Spells.nil, Separators.nil⟩
  | cons word words ih =>
    obtain ⟨⟨hDotted, hBehind⟩, hLater⟩ := List.forall_mem_cons.mp hWords
    have hWord : Spells data ((data.lowerText word.1).map .char) word.1 :=
      spells_lowerText hDotted
    cases words with
    | nil => exact ⟨word.1, word.2, by simp [joined], hWord, hBehind⟩
    | cons next words =>
      obtain ⟨core, trail, hJoined, hSpells, hTrail⟩ := ih hLater
      have hSeparator : ∀ Group : Type, (unitRegex data .separator : Regex Group).Reads word.2 :=
        fun _ => nameSeparator_reads hBehind
      have hAll : joined (word :: next :: words) = word.1 ++ word.2 ++ joined (next :: words) := rfl
      refine ⟨word.1 ++ (word.2 ++ core), trail, ?_, hWord.append (.cons hSeparator hSpells),
        hTrail⟩
      rw [hAll, hJoined]
      simp only [List.append_assoc]

end Names

/-! ## The trie and its expression -/

namespace Children

theorem has_cons (unit other : TrieUnit) (rest : List TrieUnit) (ends : Bool)
    (below others : Children) :
    (cons other ends below others).has unit rest =
      ((other = unit && match rest with
        | [] => ends
        | next :: rest => below.has next rest) || others.has unit rest) := by
  cases rest with
  | nil => rfl
  | cons next rest => rfl

theorem has_chain (unit newUnit : TrieUnit) (rest newRest : List TrieUnit) :
    (chain newUnit newRest).has unit rest = true ↔ newUnit = unit ∧ newRest = rest := by
  induction newRest generalizing newUnit unit rest with
  | nil => cases rest <;> simp [chain, has]
  | cons next newRest ih => cases rest <;> simp [chain, has, ih]

theorem has_insert (unit newUnit : TrieUnit) (rest newRest : List TrieUnit) (children : Children) :
    (children.insert newUnit newRest).has unit rest = true ↔
      newUnit = unit ∧ newRest = rest ∨ children.has unit rest = true := by
  induction children generalizing unit rest newUnit newRest with
  | nil => simp [insert, has_chain, has]
  | cons other ends below others ihBelow ihOthers =>
    unfold insert
    split_ifs with hUnit
    · subst hUnit
      -- The entry of the unit: a sequence ends there now, or its rest is entered below.
      cases newRest <;> cases rest <;>
        simp only [has, Bool.or_eq_true, Bool.and_eq_true, decide_eq_true_eq, ihBelow,
          List.cons.injEq, reduceCtorEq] <;> tauto
    · simp only [has_cons, Bool.or_eq_true, ihOthers, or_left_comm]

end Children

section Trie

variable {data : CharData}

theorem has_trieOf (sequences : List (List TrieUnit)) (unit : TrieUnit) (rest : List TrieUnit) :
    (trieOf sequences).has unit rest = true ↔ unit :: rest ∈ sequences := by
  induction sequences using List.reverseRecOn with
  | nil => simp [trieOf, Children.has]
  | append_singleton sequences sequence ih =>
    unfold trieOf at ih ⊢
    rw [List.foldl_append, List.mem_append, ← ih, List.mem_singleton, or_comm,
      @eq_comm _ (unit :: rest)]
    cases sequence with
    | nil => simp
    | cons newUnit newRest => simp [Children.has_insert]

/-- The alternatives are the branches, in some order. -/
theorem Emitter.alternation_of_ne_nil {Expr : Type} (emitter : Emitter Expr)
    {all : List (TrieUnit × Expr)} (hNe : all ≠ []) :
    ∃ first others, emitter.alternation all = some (emitter.oneOf first others) ∧
      ∀ expr, expr ∈ first :: others ↔ ∃ branch ∈ all, branch.2 = expr := by
  have hPerm := List.perm_insertionSort
    (fun first second : TrieUnit × Expr => first.1.le second.1) all
  unfold alternation
  split
  next hNil =>
    rw [hNil] at hPerm
    exact absurd hPerm.nil_eq.symm hNe
  next first others hCons =>
    rw [hCons] at hPerm
    refine ⟨_, _, rfl, fun expr => ?_⟩
    rw [← List.map_cons, List.mem_map]
    simp only [hPerm.mem_iff]

theorem alternation_reads {all : List (TrieUnit × Regex Group)} {branch : TrieUnit × Regex Group}
    (hMem : branch ∈ all) (hReads : branch.2.Reads text) :
    ∃ regex, (regexEmitter data).alternation all = some regex ∧ regex.Reads text := by
  obtain ⟨first, others, hAll, hBranches⟩ :=
    (regexEmitter data).alternation_of_ne_nil (List.ne_nil_of_mem hMem)
  exact ⟨_, hAll, Regex.Reads.oneOf ((hBranches _).mpr ⟨branch, hMem, rfl⟩) hReads⟩

theorem branches_reads {children : Children} {unit : TrieUnit} {rest : List TrieUnit}
    (hHas : children.has unit rest = true) (hSpells : Spells data (unit :: rest) text) :
    ∃ branch ∈ (regexEmitter data : Emitter (Regex Group)).branches children,
      branch.2.Reads text := by
  induction children generalizing unit rest text with
  | nil => cases hHas
  | cons other ends below others ihBelow ihOthers =>
    rw [Children.has_cons, Bool.or_eq_true] at hHas
    cases hHas with
    | inr hOthers =>
      obtain ⟨branch, hBranch, hReads⟩ := ihOthers hOthers hSpells
      exact ⟨branch, List.mem_cons_of_mem _ hBranch, hReads⟩
    | inl hHere =>
      rw [Bool.and_eq_true, decide_eq_true_eq] at hHere
      obtain ⟨rfl, hRest⟩ := hHere
      cases hSpells with
      | cons hUnit hBack =>
        refine ⟨_, List.mem_cons_self, (hUnit Group).seq ?_⟩
        cases rest with
        | nil =>
          cases hBack
          have hEnds : ends = true := hRest
          rw [hEnds]
          unfold Emitter.tail
          split
          · exact Regex.Reads.empty
          · exact Regex.Reads.opt_nil
        | cons next rest =>
          obtain ⟨branch, hBranch, hReads⟩ := ihBelow hRest hBack
          obtain ⟨regex, hRegex, hReadsAll⟩ := alternation_reads hBranch hReads
          rw [hRegex]
          unfold Emitter.tail
          cases ends with
          | true => exact hReadsAll.opt
          | false => exact hReadsAll

theorem trieRegex_reads {sequences : List (List TrieUnit)} {units : List TrieUnit}
    (hMem : units ∈ sequences) (hNe : units ≠ []) (hSpells : Spells data units text) :
    ∃ regex : Regex Group, trieRegex data sequences = some regex ∧ regex.Reads text := by
  obtain ⟨unit, rest, rfl⟩ := List.exists_cons_of_ne_nil hNe
  obtain ⟨branch, hBranch, hReads⟩ := branches_reads ((has_trieOf ..).mpr hMem) hSpells
  exact alternation_reads hBranch hReads

end Trie

end TimelapseManager.Reports
