import TimelapseManager.Lib.Dict
import TimelapseManager.Reports.EntityRegex
import TimelapseManager.Reports.Leftovers

/-!
# The check of an anonymized text

`Verifier.checkText` reads an anonymized text again and refuses it if a secret, a known name or a
private pattern is left.  The placeholders that were issued are blanked before the search.

`maskCells` keeps for every blanked mark the placeholder it stands for.  The key `_norm` makes of a
value is a parameter: it decides further refusals only.
-/

namespace TimelapseManager.Reports

open Regexes PyRe PyText KeyedRows

/-- What the verifier reads of the `Pseudonymizer`. -/
structure Pseudonymizer where
  entities : List Entity
  issued : List Text
  pathPlaceholders : List Text
  sources : Dict Text Text
  paths_issued : ∀ placeholder ∈ pathPlaceholders, placeholder ∈ issued

variable (data : CharData)

namespace Pseudonymizer

variable (pseudonymizer : Pseudonymizer)

/-- The forms of the strong entities that are not paths. -/
def nameForms : List Text :=
  (pseudonymizer.entities.filter fun entity => !entity.weak && entity.kind ≠ .path).flatMap
    fun entity => forms data entity.value

def nameNorms (norm : Text → Text) : List Text :=
  (pseudonymizer.nameForms data).map norm

def maxRaw : ℕ :=
  ((pseudonymizer.nameForms data).map List.length).foldl max 0

end Pseudonymizer

/-- `_prefixes_with_longer`. -/
def prefixesWithLonger (norms : List Text) : List Text :=
  let ordered := norms.dedup.insertionSort fun first second => first ≤ second
  ((ordered.zip ordered.tail).filter fun pair => pair.1.isPrefixOf pair.2).map Prod.fst

/-! ## Blanking the placeholders -/

def pathPlaceholderRoot : Text := "/path/".toList

/-- `_START` and `_END`. -/
def startOf {Group : Type} (data : CharData) (ignoreCase : Bool) : Regex Group :=
  .behind false (Class.accepts data ignoreCase ⟨true, [.notWord, .lit '_']⟩)

def endOf {Group : Type} (data : CharData) (ignoreCase : Bool) : Regex Group :=
  .ahead false (.one (Class.accepts data ignoreCase ⟨true, [.notWord, .lit '_']⟩))

/-- `_NAME_PLACEHOLDER`. -/
def namePlaceholder : Regex Empty :=
  .concat
    [startOf data false,
      .plus (.one (Class.accepts data false ⟨false, [.range 'a' 'z']⟩)),
      .one fun char => char = '-',
      .plus (.one data.isDecimal),
      endOf data false]

/-- `_PLACEHOLDER_SHAPE`. -/
def placeholderShape : Regex Empty :=
  .alt (namePlaceholder data)
    (.concat
      [.concat (pathPlaceholderRoot.map fun char => .one fun other => other = char),
        .plus (.one (Class.accepts data false ⟨false, [.range 'a' 'z', .range '0' '9', .lit '-']⟩)),
        .opt (.seq (.one fun char => char = '/')
          (.star (.one (Class.accepts data false ⟨true, Pattern.tokenEnds⟩))))])

/-- `_path_role_of`: the name of a path placeholder without its number. -/
def pathRoleOf (placeholder : Text) : Text :=
  let name := placeholder.drop pathPlaceholderRoot.length
  match name.reverse.takeWhile data.isDecimal, name.reverse.dropWhile data.isDecimal with
  | _ :: _, '-' :: role => role.reverse
  | _, _ => name

/-- `APP_MANAGED_ROLES`. -/
def appManagedRoles : List String := ["data", "frames", "storage", "export", "logs"]

/-- `_path_mark`. -/
def pathMark (placeholder : Text) : Char :=
  if isOneOf (pathRoleOf data placeholder) appManagedRoles then '\x01' else '\x02'

/-- `_known_path_prefix`. -/
def Pseudonymizer.knownPathPrefix (pseudonymizer : Pseudonymizer) (text : Text) : Option Text :=
  if pathPlaceholderRoot.isPrefixOf text then
    let head := (text.drop pathPlaceholderRoot.length).takeWhile (· ≠ '/')
    let candidate := pathPlaceholderRoot ++ head
    if pseudonymizer.pathPlaceholders.contains candidate then some candidate else none
  else none

/-- A character of a masked text: one of the text, or the mark of a placeholder. -/
inductive Cell
  | plain (char : Char)
  | hidden (placeholder : Text) (mark : Char)
  deriving DecidableEq

/-- What stands there in the text, and in the masked text. -/
def Cell.source : Cell → Text
  | plain char => [char]
  | hidden placeholder _ => placeholder

def Cell.shown : Cell → Char
  | plain char => char
  | hidden _ mark => mark

/-- The replacement of a text in the shape of a placeholder. -/
def blank (pseudonymizer : Pseudonymizer) (value : Text) : List Cell :=
  if pseudonymizer.issued.contains value then
    if pathPlaceholderRoot.isPrefixOf value then [.hidden value (pathMark data value)]
    else [.hidden value '\x00']
  else
    -- A longer path: only the placeholder in front is blanked.
    match pseudonymizer.knownPathPrefix value with
    | none => value.map .plain
    | some head => .hidden head (pathMark data head) :: (value.drop head.length).map .plain

def maskCells (pseudonymizer : Pseudonymizer) (text : Text) : List Cell :=
  if pseudonymizer.issued = [] then text.map .plain
  else
    ((placeholderShape data).pieces text.length [] text).flatMap fun
      | .plain char => [.plain char]
      | .found hit => blank data pseudonymizer hit.text

/-- `_mask`. -/
def mask (pseudonymizer : Pseudonymizer) (text : Text) : Text :=
  (maskCells data pseudonymizer text).map Cell.shown

section Mask

variable {data : CharData} {pseudonymizer : Pseudonymizer}

theorem knownPathPrefix_spec {value head : Text}
    (hHead : pseudonymizer.knownPathPrefix value = some head) :
    head <+: value ∧ head ∈ pseudonymizer.issued := by
  simp only [Pseudonymizer.knownPathPrefix] at hHead
  split_ifs at hHead with hRoot hKnown
  cases hHead
  obtain ⟨rest, rfl⟩ := List.isPrefixOf_iff_prefix.mp hRoot
  constructor
  · exact (List.prefix_append_right_inj _).mpr (List.takeWhile_prefix _)
  · rw [List.drop_left] at hKnown
    exact pseudonymizer.paths_issued _ (List.contains_iff_mem.mp hKnown)

theorem issued_of_hidden {text placeholder : Text} {mark : Char}
    (hMem : .hidden placeholder mark ∈ maskCells data pseudonymizer text) :
    placeholder ∈ pseudonymizer.issued ∧ mark ∈ ['\x00', '\x01', '\x02'] := by
  have hPlain : ∀ text : Text, Cell.hidden placeholder mark ∉ text.map Cell.plain := by
    intro text hIn
    obtain ⟨char, -, hCell⟩ := List.mem_map.mp hIn
    cases hCell
  have hMark : ∀ path, pathMark data path ∈ ['\x00', '\x01', '\x02'] := by
    intro path
    unfold pathMark
    split
    · decide
    · decide
  unfold maskCells at hMem
  split_ifs at hMem with hIssued
  · exact absurd hMem (hPlain text)
  obtain ⟨piece, -, hCell⟩ := List.mem_flatMap.mp hMem
  cases piece with
  | plain char => exact absurd (List.mem_singleton.mp hCell) nofun
  | found hit =>
    have hCell : Cell.hidden placeholder mark ∈ blank data pseudonymizer hit.text := hCell
    unfold blank at hCell
    split_ifs at hCell with hKnown hPath
    · cases List.mem_singleton.mp hCell
      exact ⟨List.contains_iff_mem.mp hKnown, hMark _⟩
    · cases List.mem_singleton.mp hCell
      exact ⟨List.contains_iff_mem.mp hKnown, by decide⟩
    · split at hCell
      next => exact absurd hCell (hPlain _)
      next head hHead =>
        cases List.mem_cons.mp hCell with
        | inl hFirst =>
          cases hFirst
          exact ⟨(knownPathPrefix_spec hHead).2, hMark _⟩
        | inr hRest => exact absurd hRest (hPlain _)

end Mask

/-! ## The verifier -/

/-- Whose text a weak name was found in. -/
inductive HitScope
  | text
  | snapshot
  deriving DecidableEq

/-- A weak entity found in free text; without a kind where no entity has the key of what was
found. -/
structure GenericNameHit where
  kind : Option Kind
  value : Text
  scope : HitScope
  deriving DecidableEq

/-- Why a text is refused. -/
inductive Refusal
  | secret
  | cutShort
  | knownName
  | leftover (group : LeftoverGroup)
  | keyName
  | genericNames (hits : List GenericNameHit)
  deriving DecidableEq

structure Verifier where
  data : CharData
  /-- `_norm`. -/
  norm : Text → Text
  pseudonymizer : Pseudonymizer
  scrubber : Scrubber
  refuseWeak : Bool

namespace Verifier

variable (verifier : Verifier)

def strong : List Entity :=
  verifier.pseudonymizer.entities.filter fun entity => !entity.weak

def strongNorms : List Text :=
  verifier.strong.flatMap fun entity => (forms verifier.data entity.value).map verifier.norm

def weak : List Entity :=
  verifier.pseudonymizer.entities.filter fun entity =>
    entity.weak && entity.refusable && !verifier.strongNorms.contains (verifier.norm entity.value)

/-- The weak entity under a key: the last one that has it. -/
def weakOf (key : Text) : Option Entity :=
  verifier.weak.reverse.find? fun entity =>
    ((forms verifier.data entity.value).map verifier.norm).contains key

/-- The expression of entities between `_START` and `_END`. -/
def bounded (entities : List Entity) : Option (Regex Empty) :=
  (entityRegex verifier.data entities).map fun regex =>
    .seq (startOf verifier.data true) (.seq regex (endOf verifier.data true))

def maskText (text : Text) : Text :=
  mask verifier.data verifier.pseudonymizer text

/-- `_weak_hits`. -/
def weakHits (place : String) (values : List Text) : List GenericNameHit :=
  match verifier.refuseWeak, verifier.bounded verifier.weak with
  | true, some pattern =>
    let scope := if ["title", "description", "report.json"].contains place then HitScope.text
      else HitScope.snapshot
    values.flatMap fun value =>
      (pattern.finditer (verifier.maskText value)).map fun found =>
        match verifier.weakOf (verifier.norm found.text) with
        | some entity => ⟨some entity.kind, entity.value, scope⟩
        | none => ⟨none, found.text, scope⟩
  | _, _ => []

/-- A placeholder and what follows it, up to a place where no word goes on, spell a longer name. -/
def spellsLonger (source window : Text) : Bool :=
  (List.range window.length).any fun index =>
    let stop := index + 1
    if window[stop]?.any verifier.data.isAlnum then false
    else
      let key := verifier.norm (window.take stop)
      (verifier.pseudonymizer.nameNorms verifier.data verifier.norm).contains (source ++ key) &&
        key ≠ []

/-- `_cut_short`. -/
def cutShort (value : Text) : Bool :=
  let hasLonger := prefixesWithLonger (verifier.pseudonymizer.nameNorms verifier.data verifier.norm)
  hasLonger ≠ [] && ((namePlaceholder verifier.data).finditer value).any fun found =>
      match verifier.pseudonymizer.sources.get? found.text with
      | none => false
      | some source =>
        hasLonger.contains source &&
          verifier.spellsLonger source
            (found.after.take (verifier.pseudonymizer.maxRaw verifier.data))

/-- The checks of one string. -/
def checkString (value : Text) : Except Refusal Unit :=
  if verifier.cutShort value then .error .cutShort
  else
    let masked := verifier.maskText value
    if (verifier.bounded verifier.strong).any fun pattern => pattern.search [] masked then
      .error .knownName
    else
      match Reports.leftover verifier.data masked with
      | some group => .error (.leftover group)
      | none => .ok ()

def checkEach : List Text → Except Refusal Unit
  | [] => .ok ()
  | value :: values => do
    verifier.checkString value
    checkEach values

/-- `_is_snake_key`. -/
def isSnakeKey (key : Text) : Bool :=
  match key with
  | [] => false
  | first :: rest =>
    first.isLower && rest.all fun char => char.isLower || char.isDigit || char = '_'

/-- The weak names among keys; a strong one refuses at once. -/
def checkKeys (place : String) : List Text → Except Refusal (List GenericNameHit)
  | [] => .ok []
  | key :: keys =>
    if verifier.pseudonymizer.issued.contains (strip key) then checkKeys place keys
    else if verifier.strongNorms.contains (verifier.norm key) then .error .keyName
    else do
      let hits ← checkKeys place keys
      return (if isSnakeKey key then [] else verifier.weakHits place [key]) ++ hits

/-- `_check_strings`. -/
def checkStrings (place : String) (strings freeText keys : List Text) : Except Refusal Unit := do
  verifier.checkEach strings
  match verifier.weakHits place freeText ++ (← verifier.checkKeys place keys) with
  | [] => .ok ()
  | hits => .error (.genericNames hits)

/-- `check_text`. -/
def checkText (place : String) (text : Text) : Except Refusal Unit :=
  if verifier.scrubber.contains (encodeUtf8 text) then .error .secret
  else verifier.checkStrings place [text] [text] []

end Verifier

end TimelapseManager.Reports
