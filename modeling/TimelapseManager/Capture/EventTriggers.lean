import TimelapseManager.Lib.PyText

/-!
# Stored event triggers, read twice

`parse_triggers` makes typed triggers of the JSON value that a project has stored, or raises.  The
supervisor asks `_has_enabled_event_trigger` of the same value whether the project needs an event
listener.  A record without the key `enabled` is enabled for the one and not for the other.
-/

namespace TimelapseManager.Capture.EventTriggers

open PyText (strip)

abbrev Text := List Char

/-- A value of a JSON column.  Of a float nothing is read but whether it is zero. -/
inductive Json
  | null
  | bool (value : Bool)
  | int (value : ℤ)
  | float (isZero : Bool)
  | string (text : Text)
  | array (items : List Json)
  | object (fields : List (String × Json))

abbrev Record := List (String × Json)

namespace Json

/-- `bool(value)`. -/
def truthy : Json → Bool
  | null => false
  | bool value => value
  | int value => value ≠ 0
  | float isZero => !isZero
  | string text => !text.isEmpty
  | array items => !items.isEmpty
  | object fields => !fields.isEmpty

def items : Json → List Json
  | array items => items
  | _ => []

end Json

/-! ## `parse_triggers` -/

structure EventTrigger where
  id : Text
  topicId : Text
  label : Text
  category : Text
  enabled : Bool
  cooldownSeconds : ℤ
  deriving DecidableEq

/-- Of each segment what follows its last colon; empty segments are dropped. -/
def canonicalizeTopic (rawTopic : Text) : Text :=
  let locals := ((strip rawTopic).splitOn '/').map fun segment =>
    strip (segment.rtakeWhile (· ≠ ':'))
  ['/'].intercalate (locals.filter (· ≠ []))

def textField (record : Record) (key : String) : Text :=
  match record.lookup key with
  | some (.string text) => text
  | _ => []

/-- `_parse_one`; `uuid4` are the fresh ids. -/
def parseOne (uuid4 : ℕ → Text) (record : Record) (index : ℕ) : Except String EventTrigger :=
  let rawTopic := textField record "topic_id"
  if strip rawTopic = [] then .error s!"event_triggers[{index}].topic_id is required"
  else if canonicalizeTopic rawTopic = [] then
    .error s!"event_triggers[{index}].topic_id is empty after parsing"
  else
    let rawId := strip (textField record "id")
    match (record.lookup "cooldown_seconds").getD (.int 0) with
    | .int (.ofNat cooldown) =>
      .ok {
        id := if rawId = [] then uuid4 index else rawId
        topicId := canonicalizeTopic rawTopic
        label := textField record "label"
        category := textField record "category"
        enabled := ((record.lookup "enabled").getD (.bool true)).truthy
        cooldownSeconds := cooldown }
    | _ => .error s!"event_triggers[{index}].cooldown_seconds must be a non-negative integer"

/-- The loop of `parse_triggers`. -/
def parseFrom (uuid4 : ℕ → Text) : List Json → ℕ → Except String (List EventTrigger)
  | [], _ => .ok []
  | .object record :: items, index =>
    (parseOne uuid4 record index).bind fun trigger =>
      (parseFrom uuid4 items (index + 1)).map (trigger :: ·)
  | _ :: _, index => .error s!"event_triggers[{index}] must be a mapping"

def parseTriggers (uuid4 : ℕ → Text) (stored : Json) : Except String (List EventTrigger) :=
  if stored.truthy then
    match stored with
    | .array items => parseFrom uuid4 items 0
    | _ => .error "event_triggers must be a list"
  else .ok []

/-! ## The cheap test -/

/-- The entry is a mapping whose flag is there and truthy. -/
def Json.flagged : Json → Bool
  | .object record => ((record.lookup "enabled").getD (.bool false)).truthy
  | _ => false

/-- `_has_enabled_event_trigger`.  What a text or a mapping yields is no mapping, and over other
values the loop raises `TypeError`. -/
def hasEnabledEventTrigger (stored : Json) : Option Bool :=
  if stored.truthy then
    match stored with
    | .array items => some (items.any Json.flagged)
    | .string _ | .object _ => some false
    | _ => none
  else some false

/-! ## Where they agree -/

/-- The entry is a mapping without the flag. -/
def Json.unflagged : Json → Bool
  | .object record => (record.lookup "enabled").isNone
  | _ => false

variable {uuid4 : ℕ → Text} {record : Record} {index : ℕ} {trigger : EventTrigger}
  {triggers : List EventTrigger} {items : List Json} {stored : Json}

theorem enabled_of_parseOne (hParsed : parseOne uuid4 record index = .ok trigger) :
    trigger.enabled = ((Json.object record).flagged || (Json.object record).unflagged) := by
  simp only [parseOne] at hParsed
  split_ifs at hParsed
  all_goals
    split at hParsed <;> cases hParsed
    cases hFlag : record.lookup "enabled" <;>
      simp [Json.flagged, Json.unflagged, Json.truthy, hFlag]

theorem any_enabled_of_parseFrom (hParsed : parseFrom uuid4 items index = .ok triggers) :
    triggers.any EventTrigger.enabled = (items.any Json.flagged || items.any Json.unflagged) := by
  induction items generalizing index triggers with
  | nil =>
    cases hParsed
    rfl
  | cons item items ih =>
    cases item with
    | object record =>
      simp only [parseFrom] at hParsed
      cases hOne : parseOne uuid4 record index with rw [hOne] at hParsed
      | error => cases hParsed
      | ok trigger =>
        cases hRest : parseFrom uuid4 items (index + 1) with rw [hRest] at hParsed
        | error => cases hParsed
        | ok triggers =>
          cases hParsed
          simp only [List.any_cons, enabled_of_parseOne hOne, ih hRest]
          ac_rfl
    | _ => cases hParsed

/-- An entry counts for the test if it is a record with a truthy flag of its own. -/
theorem any_flagged_iff : items.any Json.flagged = true ↔
    ∃ record flag, .object record ∈ items ∧ record.lookup "enabled" = some flag ∧
      flag.truthy = true := by
  rw [List.any_eq_true]
  constructor
  · rintro ⟨item, hItem, hFlagged⟩
    cases item with
    | object record =>
      cases hFlag : record.lookup "enabled" with
      | none => simp [Json.flagged, Json.truthy, hFlag] at hFlagged
      | some flag =>
        refine ⟨record, flag, hItem, hFlag, ?_⟩
        simpa [Json.flagged, hFlag] using hFlagged
    | _ => cases hFlagged
  · rintro ⟨record, flag, hRecord, hFlag, hTruthy⟩
    exact ⟨_, hRecord, by simpa [Json.flagged, hFlag] using hTruthy⟩

theorem any_unflagged_eq_false_iff : items.any Json.unflagged = false ↔
    ∀ record, .object record ∈ items → (record.lookup "enabled").isSome = true := by
  rw [List.any_eq_false]
  constructor
  · intro hAll record hRecord
    simpa [Json.unflagged, Option.isSome_iff_ne_none] using hAll _ hRecord
  · intro hAll item hItem
    cases item with
    | object record =>
      simpa only [Json.unflagged, Option.isNone_iff_eq_none, Option.isSome_iff_ne_none]
        using hAll record hItem
    | _ => exact Bool.false_ne_true

/-- The test says whether a trigger is enabled exactly if some stored record has a truthy flag or
none omits it. -/
theorem enabled_test_iff (hParsed : parseTriggers uuid4 stored = .ok triggers) :
    hasEnabledEventTrigger stored = some (triggers.any EventTrigger.enabled) ↔
      (∃ record flag, .object record ∈ stored.items ∧ record.lookup "enabled" = some flag ∧
          flag.truthy = true) ∨
        ∀ record, .object record ∈ stored.items → (record.lookup "enabled").isSome = true := by
  rw [← any_flagged_iff, ← any_unflagged_eq_false_iff]
  unfold parseTriggers at hParsed
  unfold hasEnabledEventTrigger
  by_cases hTruthy : stored.truthy = true
  · rw [if_pos hTruthy] at hParsed ⊢
    cases stored with
    | array items =>
      have hAny := any_enabled_of_parseFrom hParsed
      cases hFlagged : items.any Json.flagged <;> simp [hAny, hFlagged, Json.items]
    | _ => cases hParsed
  · rw [if_neg hTruthy] at hParsed ⊢
    cases hParsed
    have hNone : stored.items = [] := by
      cases stored with
      | array items => simpa [Json.truthy, Json.items] using hTruthy
      | _ => rfl
    simp [hNone]

/-- One record with the topic `a`. -/
def storedTrigger (rest : Record) : Json :=
  .array [.object (("topic_id", .string ['a']) :: rest)]

theorem enabled_test_iff_flagged :
    hasEnabledEventTrigger (storedTrigger [("enabled", .bool true)]) = some true ∧
      parseTriggers (fun _ => []) (storedTrigger [("enabled", .bool true)]) =
        .ok [⟨[], ['a'], [], [], true, 0⟩] := by
  have hParsed : parseTriggers (fun _ => []) (storedTrigger [("enabled", .bool true)]) =
      .ok [⟨[], ['a'], [], [], true, 0⟩] := rfl
  exact ⟨(enabled_test_iff hParsed).mpr
    (Or.inl ⟨_, .bool true, List.mem_singleton.mpr rfl, rfl, rfl⟩), hParsed⟩

/-- Without the flag the trigger is enabled, and the project gets no listener. -/
theorem unflagged_trigger_without_listener :
    parseTriggers (fun _ => []) (storedTrigger []) = .ok [⟨[], ['a'], [], [], true, 0⟩] ∧
      hasEnabledEventTrigger (storedTrigger []) = some false :=
  ⟨rfl, rfl⟩

end TimelapseManager.Capture.EventTriggers
