import TimelapseManager.Lib.Dict
import TimelapseManager.Lib.Runs

/-!
# Replay-safe mutations

`run_idempotent` runs a handler at most once per `Idempotency-Key`: the first request reserves
the key in an `IdempotencyCache`, runs, and stores a 2xx response or gives the key back.  The
cache is locked for each of its operations, not in between: requests read the clock, reserve, run,
and complete or release in any order with each other.

* `step` is one such stretch of one request, or the clock going on.
* `Fits` is the side condition that the cache has room, and `Timely` that a reservation outlasts
  its handler.
-/

namespace TimelapseManager.Web.Idempotency

open KeyedRows

abbrev Text := List Char

/-- The parts of a 2xx response needed to replay it. -/
structure StoredResponse where
  statusCode : ℕ
  mediaType : Option Text
  body : List UInt8
  deriving DecidableEq

/-- `(user_id, route, key)`. -/
abbrev CacheKey := ℕ × Text × Text

/-- `_Entry`, with the request that made the reservation. -/
structure Entry (Digest : Type) where
  fingerprint : Digest
  expiresAt : ℚ
  response : Option StoredResponse
  owner : ℕ
  deriving DecidableEq

/-- The settings of a cache; `IdempotencyCache` refuses others. -/
structure Limits where
  ttl : ℚ
  maxEntries : ℕ
  ttl_pos : 0 < ttl
  maxEntries_pos : 1 ≤ maxEntries

/-- `_KEY_RE`. -/
def isKey (raw : Text) : Bool :=
  raw.all (fun char => ('A' ≤ char && char ≤ 'Z') || ('a' ≤ char && char ≤ 'z') ||
    ('0' ≤ char && char ≤ '9') || char = '_' || char = '-') &&
    8 ≤ raw.length && raw.length ≤ 128

/-- `fingerprint_form`, over the hash of the fields in the order of their names. -/
def fingerprintForm {Digest : Type} (sha256 : Text → Digest) (form : List (Text × Text)) :
    Digest :=
  let fields := form.insertionSort fun first second => first.1 ≤ second.1
  let kept := fields.filter fun field => field.1 ≠ "csrf_token".toList
  sha256 (kept.flatMap fun field => field.1 ++ ['\x00'] ++ field.2 ++ ['\x00'])

/-- What a request is answered with: the response of its own handler or what that raised, a stored
response, or one of the refusals. -/
inductive Answer
  | own (response : StoredResponse)
  | raised
  | replayed (response : StoredResponse)
  | inProgress
  | mismatch
  | invalidKey
  deriving DecidableEq

/-- Where a request is.  It keeps the time it read before it reserved, and later the time it read
before it completes. -/
inductive Phase
  | unkeyed
  | arrived (now : ℚ)
  | running (reserved : ℚ)
  | returned (reserved : ℚ) (response : StoredResponse)
  | completing (reserved : ℚ) (response : StoredResponse) (now : ℚ)
  | releasing (reserved : ℚ) (answer : Answer)
  | finished (answer : Answer)
  deriving DecidableEq

structure Request (Digest : Type) where
  key : CacheKey
  fingerprint : Digest
  phase : Phase
  deriving DecidableEq

/-- An execution that returned a 2xx response, and when it did. -/
structure Success where
  request : ℕ
  key : CacheKey
  at_ : ℚ
  deriving DecidableEq

/-- The clock, the cache, the requests and the executions that succeeded, latest first. -/
structure State (Digest : Type) where
  clock : ℚ
  entries : Dict CacheKey (Entry Digest)
  requests : Dict ℕ (Request Digest)
  successes : List Success

/-- What happens: the clock goes on; a request comes in and reads the clock; it reserves; its
handler answers or raises; it reads the clock again; it completes; it releases. -/
inductive Label
  | tick (now : ℚ)
  | send (request user : ℕ) (route : Text) (header : Option Text) (form : List (Text × Text))
  | reserve (request : ℕ)
  | answer (request : ℕ) (response : StoredResponse)
  | raise (request : ℕ)
  | stamp (request : ℕ)
  | complete (request : ℕ)
  | release (request : ℕ)

variable {Digest : Type}

/-- Nothing has happened yet. -/
def State.initial (clock : ℚ) : State Digest :=
  ⟨clock, Dict.empty, Dict.empty, []⟩

/-- `_purge_expired`. -/
def purgeExpired (entries : Dict CacheKey (Entry Digest)) (now : ℚ) :
    Dict CacheKey (Entry Digest) :=
  entries.keep fun entry => !decide (entry.expiresAt ≤ now)

/-- Moves a request on. -/
def State.setPhase (state : State Digest) (id : ℕ) (phase : Phase) : State Digest :=
  { state with requests := state.requests.modify id fun request => { request with phase := phase } }

/-- The locked part of `reserve`, and what `run_idempotent` makes of its outcome. -/
def State.reserve [DecidableEq Digest] (limits : Limits) (state : State Digest) (id : ℕ)
    (request : Request Digest) (now : ℚ) : State Digest :=
  let entries := purgeExpired state.entries now
  match entries.get? request.key with
  | some entry =>
    let state := { state with entries := entries.set request.key entry }
    if entry.fingerprint ≠ request.fingerprint then state.setPhase id (.finished .mismatch)
    else
      match entry.response with
      | none => state.setPhase id (.finished .inProgress)
      | some response => state.setPhase id (.finished (.replayed response))
  | none =>
    let entry : Entry Digest := ⟨request.fingerprint, now + limits.ttl, none, id⟩
    let entries := (entries.set request.key entry).newest limits.maxEntries
    { state with entries := entries }.setPhase id (.running now)

/-- The locked part of `complete`. -/
def complete (limits : Limits) (entries : Dict CacheKey (Entry Digest)) (key : CacheKey)
    (response : StoredResponse) (now : ℚ) : Dict CacheKey (Entry Digest) :=
  match entries.get? key with
  | none => entries
  | some entry =>
    entries.set key { entry with response := some response, expiresAt := now + limits.ttl }

/-- The locked part of `release`. -/
def release (entries : Dict CacheKey (Entry Digest)) (key : CacheKey) :
    Dict CacheKey (Entry Digest) :=
  match entries.get? key with
  | none => entries
  | some entry => if entry.response = none then entries.erase key else entries

/-- A response that is stored. -/
def isSuccess (response : StoredResponse) : Bool :=
  200 ≤ response.statusCode && response.statusCode < 300

/-- The request whose turn it is. -/
def Label.request? : Label → Option ℕ
  | .tick _ | .send .. => none
  | .reserve id | .answer id _ | .raise id | .stamp id | .complete id | .release id => some id

/-- One stretch of a request, from the phase it is in. -/
def State.turn (limits : Limits) (state : State Digest) [DecidableEq Digest] (label : Label)
    (request : Request Digest) : Option (State Digest) :=
  match label, request.phase with
  | .reserve id, .arrived now => some (state.reserve limits id request now)
  | .answer id response, .unkeyed => some (state.setPhase id (.finished (.own response)))
  | .answer id response, .running reserved =>
    some (if isSuccess response then
      { state.setPhase id (.returned reserved response) with
        successes := ⟨id, request.key, state.clock⟩ :: state.successes }
    else state.setPhase id (.releasing reserved (.own response)))
  | .raise id, .unkeyed => some (state.setPhase id (.finished .raised))
  | .raise id, .running reserved => some (state.setPhase id (.releasing reserved .raised))
  | .stamp id, .returned reserved response =>
    some (state.setPhase id (.completing reserved response state.clock))
  | .complete id, .completing _ response now =>
    some ({ state with entries := complete limits state.entries request.key response now }.setPhase
      id (.finished (.own response)))
  | .release id, .releasing _ answer =>
    some ({ state with entries := release state.entries request.key }.setPhase id
      (.finished answer))
  | _, _ => none

/-- One stretch of one request, or the clock going on. -/
def step [DecidableEq Digest] (limits : Limits) (sha256 : Text → Digest) (state : State Digest) :
    Label → Option (State Digest)
  | .tick now => if state.clock ≤ now then some { state with clock := now } else none
  | .send id user route header form =>
    let fingerprint := fingerprintForm sha256 form
    if state.requests.get? id ≠ none then none
    else
      match header with
      | none =>
        some { state with
          requests := state.requests.set id ⟨(user, route, []), fingerprint, .unkeyed⟩ }
      | some raw =>
        let phase := if isKey raw then .arrived state.clock else .finished .invalidKey
        some { state with
          requests := state.requests.set id ⟨(user, route, raw), fingerprint, phase⟩ }
  | label => label.request?.bind fun id =>
    (state.requests.get? id).bind (state.turn limits label)

/-! ## Reservations that outlast their handlers -/

/-- When a request that holds a reservation read the clock for it. -/
def Phase.reserved : Phase → Option ℚ
  | .running reserved => some reserved
  | .returned reserved _ => some reserved
  | .completing reserved _ _ => some reserved
  | .releasing reserved _ => some reserved
  | _ => none

/-- When a request that is to reserve read the clock for it. -/
def Phase.arrival : Phase → Option ℚ
  | .arrived now => some now
  | _ => none

/-- The cache has room for the key that is reserved: the other live keys are fewer than it may
hold. -/
def Fits (limits : Limits) (state : State Digest) : Label → Prop
  | .reserve id =>
    ∀ request ∈ state.requests.get? id,
      ((purgeExpired state.entries state.clock).erase request.key).rows.length < limits.maxEntries
  | _ => True

/-- A reservation is made, and its handler ends with what `complete` or `release` does, in less
than the ttl; and no entry expires between the reading of the clock and the purge. -/
def Timely (limits : Limits) (state : State Digest) : Label → Prop
  | .tick now =>
    ∀ row ∈ state.requests.rows, ∀ reserved ∈ row.2.phase.reserved, now < reserved + limits.ttl
  | .reserve id =>
    ∀ request ∈ state.requests.get? id, ∀ now ∈ request.phase.arrival,
      state.clock < now + limits.ttl ∧
        ∀ row ∈ state.entries.rows, row.2.expiresAt ≤ state.clock → row.2.expiresAt ≤ now
  | _ => True

instance (limits : Limits) (state : State Digest) : ∀ label, Decidable (Fits limits state label)
  | .reserve id => by
      unfold Fits
      infer_instance
  | .tick _ | .send .. | .answer .. | .raise _ | .stamp _ | .complete _ | .release _ =>
    isTrue trivial

instance (limits : Limits) (state : State Digest) : ∀ label, Decidable (Timely limits state label)
  | .tick now => by
      unfold Timely
      infer_instance
  | .reserve id => by
      unfold Timely
      infer_instance
  | .send .. | .answer .. | .raise _ | .stamp _ | .complete _ | .release _ => isTrue trivial

end TimelapseManager.Web.Idempotency
