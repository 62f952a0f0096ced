import TimelapseManager.Lib.PyText
import TimelapseManager.Lib.Regex

/-!
# Case and character classes as `str` and `re` have them

What `str.lower` and the `re` module make of a character is decided by the Unicode tables of the
interpreter, which differ between its versions.  `CharData` is such a set of tables, with the facts
that hold of all of them and that the proofs use.  One character may become two in lower case
(`İ`), and a capital sigma depends on what stands around it.
-/

namespace TimelapseManager.PyRe

open Regexes PyText

structure CharData where
  /-- The simple case mappings (`_sre.unicode_tolower` and its counterpart). -/
  lower : Char → Char
  upper : Char → Char
  /-- `_EXTRA_CASES`: other lower-case characters with the same upper case. -/
  extraCases : Char → List Char
  isAlnum : Char → Bool
  isDecimal : Char → Bool
  /-- The properties `Cased` and `Case_Ignorable`. -/
  cased : Char → Bool
  caseIgnorable : Char → Bool
  /-- `str.casefold` of one character. -/
  casefold : Char → Text
  lower_lower : ∀ char, lower (lower char) = lower char
  upper_lower : ∀ char, lower char ≠ char → upper (lower char) ≠ lower char
  lower_sigma : lower 'Σ' = 'σ'
  lower_finalSigma : lower 'ς' = 'ς'
  upper_finalSigma : upper 'ς' ≠ 'ς'
  extraCases_finalSigma : 'σ' ∈ extraCases 'ς'
  not_isAlnum_space : ∀ char, isSpace char = true → isAlnum char = false
  /-- The control characters and punctuation that the patterns rely on. -/
  mark : ∀ char ∈ ['\x00', '\x01', '\x02', '%', '_', '-', '+'],
    isAlnum char = false ∧ lower char = char ∧ upper char = char

namespace CharData

variable (data : CharData)

/-- The condition `Final_Sigma`, on what is before, in reverse order, and after. -/
def isFinalSigma (before after : Text) : Bool :=
  (before.dropWhile data.caseIgnorable).head?.any data.cased &&
    !(after.dropWhile data.caseIgnorable).head?.any data.cased

def lowerAt (before : Text) (char : Char) (after : Text) : Text :=
  if char = 'İ' then ['i', '\u0307']
  else if char = 'Σ' then [if data.isFinalSigma before after then 'ς' else 'σ']
  else [data.lower char]

def lowerFrom : Text → Text → Text
  | _, [] => []
  | before, char :: after =>
    data.lowerAt before char after ++ lowerFrom (char :: before) after

def lowerText (text : Text) : Text :=
  data.lowerFrom [] text

def casefoldText (text : Text) : Text :=
  text.flatMap data.casefold

def isCased (char : Char) : Bool :=
  data.lower char ≠ char || data.upper char ≠ char

def matchesIgnoringCase (literal char : Char) : Bool :=
  if data.isCased literal then
    (data.lower literal :: data.extraCases (data.lower literal)).contains (data.lower char)
  else char = literal

end CharData

inductive Item
  | lit (char : Char)
  | range (low high : Char)
  | space
  | word
  | notWord
  | digit
  deriving DecidableEq

namespace Item

variable (data : CharData)

def span (low high : Char) : List Char :=
  (List.range (high.toNat + 1 - low.toNat)).map fun offset => Char.ofNat (low.toNat + offset)

def literals : Item → List Char
  | lit char => [char]
  | range low high => span low high
  | _ => []

def accepts (char : Char) : Item → Bool
  | lit other => char = other
  | range low high => low ≤ char && char ≤ high
  | space => isSpace char
  | word => data.isAlnum char || char = '_'
  | notWord => !(data.isAlnum char || char = '_')
  | digit => data.isDecimal char

/-- What an entry says of a lower-case character under `re.IGNORECASE`. -/
def acceptsFolded (char : Char) (item : Item) : Bool :=
  match item with
  | lit _ | range _ _ =>
    item.literals.any fun literal =>
      (data.lower literal :: data.extraCases (data.lower literal)).contains char
  | _ => item.accepts data char

end Item

/-- A character class `[…]` or `[^…]`.  Under `re.IGNORECASE` one with a cased literal is looked up
with the lower-case character. -/
structure Class where
  negated : Bool
  items : List Item

def Class.accepts (data : CharData) (ignoreCase : Bool) (class_ : Class) (char : Char) : Bool :=
  let folded := ignoreCase && class_.items.any fun item => item.literals.any data.isCased
  let listed :=
    if folded then class_.items.any fun item => item.acceptsFolded data (data.lower char)
    else class_.items.any fun item => item.accepts data char
  listed != class_.negated

def isWord (data : CharData) (char : Char) : Bool :=
  data.isAlnum char || char = '_'

variable {Group : Type}

def ignoring (data : CharData) (literal : Char) : Regex Group :=
  .one (data.matchesIgnoringCase literal)

/-! ## Lower case and `re.IGNORECASE` -/

section Lower

variable {data : CharData}

theorem matchesIgnoringCase_lower (char : Char) :
    data.matchesIgnoringCase (data.lower char) char = true := by
  unfold CharData.matchesIgnoringCase
  by_cases hSame : data.lower char = char
  · split
    · simp [hSame]
    · simp [hSame]
  · have hCased : data.isCased (data.lower char) = true := by
      simp [CharData.isCased, data.upper_lower char hSame]
    rw [if_pos hCased, data.lower_lower]
    simp

theorem matchesIgnoringCase_finalSigma : data.matchesIgnoringCase 'ς' 'Σ' = true := by
  have hCased : data.isCased 'ς' = true := by
    simp [CharData.isCased, data.upper_finalSigma]
  unfold CharData.matchesIgnoringCase
  rw [if_pos hCased, data.lower_finalSigma, data.lower_sigma]
  simp [data.extraCases_finalSigma]

theorem exists_lowerAt {char : Char} (hDotted : char ≠ 'İ') (before after : Text) :
    ∃ literal, data.lowerAt before char after = [literal] ∧
      data.matchesIgnoringCase literal char = true := by
  unfold CharData.lowerAt
  rw [if_neg hDotted]
  split_ifs with hSigma hFinal
  · subst hSigma
    exact ⟨'ς', rfl, matchesIgnoringCase_finalSigma⟩
  · subst hSigma
    refine ⟨'σ', rfl, ?_⟩
    rw [← data.lower_sigma]
    exact matchesIgnoringCase_lower 'Σ'
  · exact ⟨_, rfl, matchesIgnoringCase_lower char⟩

theorem lowerText_matches {text : Text} (hDotted : 'İ' ∉ text) :
    List.Forall₂ (fun literal char => data.matchesIgnoringCase literal char = true)
      (data.lowerText text) text := by
  -- The induction is on the text; what stands before it is what the lower case may depend on.
  suffices hFrom : ∀ (text before : Text), 'İ' ∉ text →
      List.Forall₂ (fun literal char => data.matchesIgnoringCase literal char = true)
        (data.lowerFrom before text) text by
    exact hFrom text [] hDotted
  intro text
  induction text with
  | nil =>
    intro before _
    exact List.Forall₂.nil
  | cons char after ih =>
    intro before hDotted
    rw [List.mem_cons, not_or] at hDotted
    obtain ⟨hChar, hAfter⟩ := hDotted
    obtain ⟨literal, hLower, hMatches⟩ := @exists_lowerAt data char (Ne.symm hChar) before after
    rw [CharData.lowerFrom, hLower]
    exact List.Forall₂.cons hMatches (ih (char :: before) hAfter)

theorem matchesIgnoringCase_self (char : Char) : data.matchesIgnoringCase char char = true := by
  unfold CharData.matchesIgnoringCase
  split
  · simp
  · simp

end Lower

end TimelapseManager.PyRe
