import Mathlib.Data.List.Basic

/-!
# Backtracking regular expressions

A matcher of the usual backtracking kind, with look-around and capturing groups.  The meaning of an
expression at a place of a text is the list of the places where a match can end, in the order in
which a backtracking engine tries them (`ends`): the first one is the match.
-/

namespace TimelapseManager.Regexes

abbrev Text := List Char

/-- A place in a text: what is before it, in reverse order, and after it; and the groups captured
on the way, latest first. -/
structure Cursor (Group : Type) where
  before : Text
  after : Text
  groups : List (Group × Text)

inductive Regex (Group : Type)
  | empty
  | one (accepts : Char → Bool)
  | seq (first second : Regex Group)
  | alt (first second : Regex Group)
  /-- A greedy repetition, from `least` to `most` times. -/
  | times (least : ℕ) (most : Option ℕ) (body : Regex Group)
  | capture (group : Group) (body : Regex Group)
  /-- `(?=…)`, or `(?!…)` where it is not wanted. -/
  | ahead (wanted : Bool) (body : Regex Group)
  /-- `(?<=…)` or `(?<!…)` of one character. -/
  | behind (wanted : Bool) (accepts : Char → Bool)
  /-- `\b`. -/
  | boundary (word : Char → Bool)
  /-- `$` in multi-line mode. -/
  | lineEnd

variable {Group : Type}

def Cursor.since (stop start : Cursor Group) : Text :=
  start.after.take (start.after.length - stop.after.length)

/-- Up to `fuel` more iterations, as many as possible first.  An iteration that reads nothing is
not repeated. -/
def greedy (step : Cursor Group → List (Cursor Group)) : ℕ → Cursor Group → List (Cursor Group)
  | 0, cursor => [cursor]
  | fuel + 1, cursor =>
    ((step cursor).filter fun next => next.after.length < cursor.after.length).flatMap
      (greedy step fuel) ++ [cursor]

/-- The iterations that have to be there, and then what follows. -/
def exactly (step follow : Cursor Group → List (Cursor Group)) :
    ℕ → Cursor Group → List (Cursor Group)
  | 0, cursor => follow cursor
  | count + 1, cursor => (step cursor).flatMap (exactly step follow count)

/-- Where a match that starts at a place can end, in the order of trying. -/
def Regex.ends : Regex Group → Cursor Group → List (Cursor Group)
  | .empty, cursor => [cursor]
  | .one accepts, cursor =>
    match cursor.after with
    | [] => []
    | char :: rest =>
      if accepts char then [⟨char :: cursor.before, rest, cursor.groups⟩] else []
  | .seq first second, cursor => (first.ends cursor).flatMap second.ends
  | .alt first second, cursor => first.ends cursor ++ second.ends cursor
  | .times least most body, cursor =>
    exactly body.ends
      (fun next => greedy body.ends ((most.map (· - least)).getD next.after.length) next)
      least cursor
  | .capture group body, cursor =>
    (body.ends cursor).map fun stop =>
      { stop with groups := (group, stop.since cursor) :: stop.groups }
  | .ahead wanted body, cursor => if (body.ends cursor).isEmpty = !wanted then [cursor] else []
  | .behind wanted accepts, cursor =>
    if cursor.before.head?.any accepts = wanted then [cursor] else []
  | .boundary word, cursor =>
    if cursor.before.head?.any word ≠ cursor.after.head?.any word then [cursor] else []
  | .lineEnd, cursor =>
    if cursor.after.head?.all fun char => char = '\n' then [cursor] else []

namespace Regex

def opt (body : Regex Group) : Regex Group :=
  times 0 (some 1) body

def star (body : Regex Group) : Regex Group :=
  times 0 none body

def plus (body : Regex Group) : Regex Group :=
  times 1 none body

def concat (parts : List (Regex Group)) : Regex Group :=
  parts.foldr seq empty

def oneOf (first : Regex Group) : List (Regex Group) → Regex Group
  | [] => first
  | second :: others => alt first (oneOf second others)

end Regex

structure Match (Group : Type) where
  text : Text
  groups : List (Group × Text)
  after : Text

def Match.group [DecidableEq Group] (found : Match Group) (group : Group) : Option Text :=
  (found.groups.find? fun captured => captured.1 = group).map Prod.snd

/-- `regex.search`: whether the expression matches anywhere from a place on. -/
def Regex.search (regex : Regex Group) : Text → Text → Bool
  | before, [] => !(regex.ends ⟨before, [], []⟩).isEmpty
  | before, char :: after =>
    !(regex.ends ⟨before, char :: after, []⟩).isEmpty || regex.search (char :: before) after

/-- A text in pieces: characters outside every match, and the matches. -/
inductive Piece (Group : Type)
  | plain (char : Char)
  | found (hit : Match Group)

/-- The leftmost matches that do not overlap, each of them one character at least. -/
def Regex.pieces (regex : Regex Group) : ℕ → Text → Text → List (Piece Group)
  | 0, _, _ => []
  | _ + 1, _, [] => []
  | fuel + 1, before, char :: after =>
    let start : Cursor Group := ⟨before, char :: after, []⟩
    match (regex.ends start).head? with
    | none => .plain char :: regex.pieces fuel (char :: before) after
    | some stop =>
      if stop.after.length < (char :: after).length then
        .found ⟨stop.since start, stop.groups, stop.after⟩ ::
          regex.pieces fuel stop.before stop.after
      else .plain char :: regex.pieces fuel (char :: before) after

def Regex.finditer (regex : Regex Group) (text : Text) : List (Match Group) :=
  (regex.pieces text.length [] text).filterMap fun
    | .plain _ => none
    | .found hit => some hit

def Regex.fullmatch (regex : Regex Group) (text : Text) : Bool :=
  (regex.ends ⟨[], text, []⟩).any fun stop => stop.after.isEmpty

/-! ## What an expression reads -/

def Regex.Reads (regex : Regex Group) (text : Text) : Prop :=
  ∀ before after groups,
    ⟨text.reverse ++ before, after, groups⟩ ∈ regex.ends ⟨before, text ++ after, groups⟩

variable {start stop : Cursor Group} {step : Cursor Group → List (Cursor Group)}

section Reads

variable {regex first second body : Regex Group} {text front back : Text}

theorem Regex.Reads.empty : (Regex.empty : Regex Group).Reads [] := by
  intro before after groups
  simp [Regex.ends]

theorem Regex.Reads.one {accepts : Char → Bool} {char : Char} (hAccepts : accepts char = true) :
    (Regex.one accepts : Regex Group).Reads [char] := by
  intro before after groups
  simp [Regex.ends, hAccepts]

theorem Regex.Reads.seq (hFirst : first.Reads front) (hSecond : second.Reads back) :
    (first.seq second).Reads (front ++ back) := by
  intro before after groups
  refine List.mem_flatMap.mpr ⟨⟨front.reverse ++ before, back ++ after, groups⟩, ?_, ?_⟩
  · rw [List.append_assoc]
    exact hFirst before (back ++ after) groups
  · rw [List.reverse_append, List.append_assoc]
    exact hSecond (front.reverse ++ before) after groups

theorem Regex.Reads.alt_left (hFirst : first.Reads text) : (first.alt second).Reads text := by
  intro before after groups
  exact List.mem_append_left _ (hFirst before after groups)

theorem Regex.Reads.alt_right (hSecond : second.Reads text) : (first.alt second).Reads text := by
  intro before after groups
  exact List.mem_append_right _ (hSecond before after groups)

theorem Regex.Reads.oneOf {others : List (Regex Group)} (hMem : regex ∈ first :: others)
    (hReads : regex.Reads text) : (Regex.oneOf first others).Reads text := by
  induction others generalizing first with
  | nil =>
    rw [List.mem_singleton.mp hMem] at hReads
    exact hReads
  | cons second others ih =>
    cases List.mem_cons.mp hMem with
    | inl hFirst =>
      rw [hFirst] at hReads
      exact hReads.alt_left
    | inr hRest => exact (ih hRest).alt_right

theorem greedy_mono {fewer more : ℕ} (hLe : fewer ≤ more) (hStop : stop ∈ greedy step fewer start) :
    stop ∈ greedy step more start := by
  induction fewer generalizing more start with
  | zero =>
    rw [List.mem_singleton.mp hStop]
    cases more with
    | zero => exact List.mem_singleton_self start
    | succ more => exact List.mem_append_right _ (List.mem_singleton_self start)
  | succ fewer ih =>
    obtain ⟨more, rfl⟩ : ∃ extra, more = extra + 1 := ⟨more - 1, by omega⟩
    cases List.mem_append.mp hStop with
    | inl hMore =>
      obtain ⟨next, hNext, hRest⟩ := List.mem_flatMap.mp hMore
      refine List.mem_append_left _ (List.mem_flatMap.mpr ⟨next, hNext, ?_⟩)
      exact ih (by omega) hRest
    | inr hDone => exact List.mem_append_right _ hDone

theorem Regex.Reads.opt_nil : (Regex.opt body).Reads [] := by
  intro before after groups
  exact List.mem_append_right _ (List.mem_singleton_self _)

theorem Regex.Reads.opt (hBody : body.Reads text) : (Regex.opt body).Reads text := by
  by_cases hText : text = []
  · rw [hText]
    exact opt_nil
  intro before after groups
  have hRead := hBody before after groups
  have hLength : after.length < (text ++ after).length := by
    have hPos := List.length_pos_of_ne_nil hText
    simp only [List.length_append]
    omega
  refine List.mem_append_left _ (List.mem_flatMap.mpr ⟨_, List.mem_filter.mpr ⟨hRead, ?_⟩, ?_⟩)
  · simpa using hLength
  · exact List.mem_singleton_self _

theorem Regex.Reads.star_nil : (Regex.star body).Reads [] := by
  intro before after groups
  exact greedy_mono (Nat.zero_le _) (List.mem_singleton_self _)

theorem Regex.ends_star (cursor : Cursor Group) :
    (Regex.star body).ends cursor = greedy body.ends cursor.after.length cursor := rfl

theorem Regex.Reads.star_cons (hBody : body.Reads front) (hFront : front ≠ [])
    (hStar : (Regex.star body).Reads back) : (Regex.star body).Reads (front ++ back) := by
  intro before after groups
  have hRead := hBody before (back ++ after) groups
  have hRest := hStar (front.reverse ++ before) after groups
  rw [Regex.ends_star] at hRest
  have hPos := List.length_pos_of_ne_nil hFront
  have hFuel : ((front ++ back) ++ after).length = (front ++ back ++ after).length - 1 + 1 := by
    simp only [List.length_append]
    omega
  rw [Regex.ends_star, hFuel]
  refine List.mem_append_left _ (List.mem_flatMap.mpr
    ⟨⟨front.reverse ++ before, back ++ after, groups⟩, List.mem_filter.mpr ⟨?_, ?_⟩, ?_⟩)
  · rw [List.append_assoc]
    exact hRead
  · simp only [List.length_append, decide_eq_true_eq]
    omega
  · rw [List.reverse_append, List.append_assoc back.reverse]
    refine greedy_mono ?_ hRest
    simp only [List.length_append]
    omega

end Reads

/-! ## Searching -/

theorem Regex.search_eq_false {regex : Regex Group} {seen front after : Text}
    (hSearch : regex.search seen (front ++ after) = false) :
    regex.ends ⟨front.reverse ++ seen, after, []⟩ = [] := by
  induction front generalizing seen with
  | nil =>
    cases after with
    | nil => simpa [Regex.search] using hSearch
    | cons char after =>
      rw [List.nil_append, Regex.search, Bool.or_eq_false_iff] at hSearch
      simpa using hSearch.1
  | cons char front ih =>
    rw [List.cons_append, Regex.search, Bool.or_eq_false_iff] at hSearch
    rw [List.reverse_cons, List.append_assoc]
    exact ih hSearch.2

end TimelapseManager.Regexes
