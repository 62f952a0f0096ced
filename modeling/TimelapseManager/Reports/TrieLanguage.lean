import TimelapseManager.Lib.Inversions
import TimelapseManager.Reports.Verifier

/-!
# The language of the trie expression

What `_trie_regex` emits, as a regular expression that has a language.  An expression below a unit
is optional where a sequence ends at the unit; where nothing is below, one always does (`Full`), so
that the language is the union of those of the sequences.
-/

namespace TimelapseManager.Reports

open Inversions

abbrev Expression := RegularExpression Char

/-- `_unit_regex`; `separator` is `_NAME_SEPARATOR`. -/
def unitExpression (separator : Expression) : TrieUnit → Expression
  | .char char => .char char
  | .separator => separator

def oneOf (first : Expression) : List Expression → Expression
  | [] => first
  | second :: others => first + oneOf second others

/-- An expression with a language. -/
def languageEmitter (separator : Expression) : Emitter Expression where
  unit := unitExpression separator
  empty := 1
  seq := (· * ·)
  oneOf := oneOf
  opt := (· + 1)

/-- `_trie_regex`; what is empty matches the empty text. -/
def trieExpression (separator : Expression) (sequences : List (List TrieUnit)) : Expression :=
  ((languageEmitter separator).emit (trieOf sequences)).getD 1

/-- The units one after the other. -/
def sequenceLanguage (separator : Expression) (units : List TrieUnit) : Language Char :=
  (units.map fun unit => (unitExpression separator unit).matches').prod

/-! ## Leaves -/

/-- Where nothing is below a unit, a sequence ends at it. -/
def Children.Full : Children → Prop
  | .nil => True
  | .cons _ ends below others => (below = .nil → ends = true) ∧ below.Full ∧ others.Full

namespace Children

theorem full_chain (unit : TrieUnit) (rest : List TrieUnit) :
    (chain unit rest).Full ∧ chain unit rest ≠ nil := by
  induction rest generalizing unit with
  | nil => simp [chain, Full]
  | cons next rest ih => simp [chain, Full, ih]

theorem full_insert {children : Children} (hFull : children.Full) (unit : TrieUnit)
    (rest : List TrieUnit) :
    (children.insert unit rest).Full ∧ children.insert unit rest ≠ nil := by
  induction children generalizing unit rest with
  | nil => exact full_chain unit rest
  | cons other ends below others ihBelow ihOthers =>
    obtain ⟨hLeaf, hBelow, hOthers⟩ := hFull
    unfold insert
    split_ifs
    · cases rest with
      | nil => simp [Full, hBelow, hOthers]
      | cons next rest => simp [Full, ihBelow hBelow, hOthers]
    · exact ⟨⟨hLeaf, hBelow, (ihOthers hOthers unit rest).1⟩, by simp⟩

theorem full_trieOf (sequences : List (List TrieUnit)) : (trieOf sequences).Full := by
  refine List.foldlRecOn (motive := Full) sequences _ trivial ?_
  intro root hFull sequence _
  cases sequence with
  | nil => exact hFull
  | cons unit rest => exact (full_insert hFull unit rest).1

end Children

/-! ## Languages -/

variable {separator first : Expression} {branches : List (TrieUnit × Expression)} {text : Text}

theorem mem_oneOf {others : List Expression} :
    text ∈ (oneOf first others).matches' ↔
      ∃ expression ∈ first :: others, text ∈ expression.matches' := by
  induction others generalizing first with
  | nil => simp [oneOf]
  | cons second others ih => simp [oneOf, Language.mem_add, ih]

theorem mem_alternation (separator : Expression) (hNe : branches ≠ []) :
    ∃ expression, (languageEmitter separator).alternation branches = some expression ∧
      ∀ text, text ∈ expression.matches' ↔ ∃ branch ∈ branches, text ∈ branch.2.matches' := by
  obtain ⟨first, others, hAll, hBranches⟩ :=
    (languageEmitter separator).alternation_of_ne_nil hNe
  refine ⟨_, hAll, fun text => mem_oneOf.trans ?_⟩
  simp only [hBranches, exists_exists_and_eq_and]

theorem mem_tail {ends : Bool} (hLeaf : branches = [] → ends = true) :
    text ∈ ((languageEmitter separator).tail ends
        ((languageEmitter separator).alternation branches)).matches' ↔
      ends = true ∧ text = [] ∨ ∃ branch ∈ branches, text ∈ branch.2.matches' := by
  by_cases hNil : branches = []
  · have hNone : (languageEmitter separator).alternation branches = none := by
      rw [hNil]
      rfl
    rw [hNone]
    simp [Emitter.tail, languageEmitter, hNil, hLeaf hNil, Language.mem_one]
  · obtain ⟨expression, hAll, hMem⟩ := mem_alternation separator hNil
    rw [hAll]
    cases ends with
    | true => simp [Emitter.tail, languageEmitter, Language.mem_add, Language.mem_one, hMem, or_comm]
    | false => simp [Emitter.tail, hMem]

theorem branches_eq_nil {children : Children}
    (hNil : (languageEmitter separator).branches children = []) : children = .nil := by
  cases children with
  | nil => rfl
  | cons => cases hNil

theorem mem_branches {children : Children} (hFull : children.Full) :
    (∃ branch ∈ (languageEmitter separator).branches children, text ∈ branch.2.matches') ↔
      ∃ unit rest, children.has unit rest = true ∧
        text ∈ sequenceLanguage separator (unit :: rest) := by
  induction children generalizing text with
  | nil => simp [Emitter.branches, Children.has]
  | cons unit ends below others ihBelow ihOthers =>
    obtain ⟨hLeaf, hBelow, hOthers⟩ := hFull
    have hEnd : (languageEmitter separator).branches below = [] → ends = true :=
      fun hNil => hLeaf (branches_eq_nil hNil)
    rw [Emitter.branches, List.exists_mem_cons_iff, ihOthers hOthers]
    simp only [Children.has_cons, Bool.or_eq_true, Bool.and_eq_true, decide_eq_true_eq,
      or_and_right, exists_or]
    refine or_congr_left ?_
    constructor
    · intro hText
      obtain ⟨front, hFront, back, hBack, rfl⟩ := Language.mem_mul.mp hText
      rcases (mem_tail hEnd).mp hBack with ⟨hEnds, rfl⟩ | hBranch
      · exact ⟨unit, [], ⟨rfl, hEnds⟩, front, hFront, [], Language.nil_mem_one, rfl⟩
      · obtain ⟨next, rest, hHas, hBack⟩ := (ihBelow hBelow).mp hBranch
        exact ⟨unit, next :: rest, ⟨rfl, hHas⟩, front, hFront, back, hBack, rfl⟩
    · rintro ⟨_, rest, ⟨rfl, hHere⟩, hText⟩
      obtain ⟨front, hFront, back, hBack, rfl⟩ := Language.mem_mul.mp hText
      refine Language.mem_mul.mpr ⟨front, hFront, back, (mem_tail hEnd).mpr ?_, rfl⟩
      cases rest with
      | nil => exact Or.inl ⟨hHere, hBack⟩
      | cons next rest => exact Or.inr ((ihBelow hBelow).mpr ⟨next, rest, hHere, hBack⟩)

/-! ## Prefixes -/

theorem isPrefix_of_between {low middle high : Text} (hPrefix : low <+: high)
    (hLow : ¬middle < low) (hHigh : ¬high < middle) : low <+: middle := by
  induction low generalizing middle high with
  | nil => exact List.nil_prefix
  | cons char low ih =>
    obtain ⟨rest, rfl⟩ := hPrefix
    cases middle with
    | nil => exact absurd (List.nil_lt_cons char low) hLow
    | cons other middle =>
      have hLe : char ≤ other := not_lt.mp fun hLess => hLow (.rel hLess)
      have hGe : other ≤ char := not_lt.mp fun hLess => hHigh (.rel hLess)
      obtain rfl := le_antisymm hLe hGe
      refine List.cons_prefix_cons.mpr ⟨rfl, ih (List.prefix_append low rest) ?_ ?_⟩
      · exact fun hLess => hLow (.cons hLess)
      · exact fun hLess => hHigh (.cons hLess)

theorem mem_prefixesWithLonger {norms : List Text} :
    text ∈ prefixesWithLonger norms ↔
      text ∈ norms ∧ ∃ longer ∈ norms, text <+: longer ∧ text ≠ longer := by
  let ordered := norms.dedup.insertionSort fun first second => first ≤ second
  have hMem : ∀ norm, norm ∈ ordered ↔ norm ∈ norms := by simp [ordered]
  have hSorted : ordered.Pairwise (· < ·) := by
    have hNodup : ordered.Nodup := (List.perm_insertionSort _ _).nodup_iff.mpr norms.nodup_dedup
    have hLe : ordered.Pairwise (· ≤ ·) := List.pairwise_insertionSort _ _
    exact (hLe.and hNodup).imp fun hBoth => lt_of_le_of_ne hBoth.1 hBoth.2
  constructor
  · intro hText
    obtain ⟨⟨first, next⟩, hPair, rfl⟩ := List.mem_map.mp hText
    obtain ⟨hPair, hPrefix⟩ := List.mem_filter.mp hPair
    obtain ⟨hFirst, hNext, hLess⟩ := adjacent_pairwise hSorted hPair
    exact ⟨(hMem _).mp hFirst, next, (hMem _).mp hNext, List.isPrefixOf_iff_prefix.mp hPrefix,
      hLess.ne⟩
  · rintro ⟨hText, longer, hLonger, hPrefix, hNe⟩
    have hLess : text < longer := lt_of_le_of_ne (not_lt.mp hPrefix.le) hNe
    obtain ⟨next, hNext, hLe⟩ :=
      exists_next hSorted ((hMem _).mpr hText) ((hMem _).mpr hLonger) hLess
    have hBelow := (adjacent_pairwise hSorted hNext).2.2
    refine List.mem_map.mpr ⟨(text, next), List.mem_filter.mpr ⟨hNext, ?_⟩, rfl⟩
    exact List.isPrefixOf_iff_prefix.mpr
      (isPrefix_of_between hPrefix (lt_asymm hBelow) (not_lt.mpr hLe))

/-! ## The result -/

end TimelapseManager.Reports
