import TimelapseManager.Lib.Dict
import TimelapseManager.Lib.Runs
import TimelapseManager.Security.Ssrf

/-!
# Connections to validated addresses

The resolution cache of `ssrf.py`, which all callers share, and `pinned_http.py`, whose network
backend dials what the guard validated.  Calls of `pinned_addresses`, `pinned_addresses_async` and
`connect_tcp` overlap in any order: between two steps of one call the others act, the clock moves,
answers change, entries are dropped and an administrator edits the allowed subnets.

`Vetted` is what holds between the steps: an entry of the cache passes the guard for every caller
that can find it.
-/

namespace TimelapseManager.Security.PinnedHttp

open IpAddress (Text Address)
open KeyedRows Runs Ssrf

/-! ## The cache -/

/-- How long an allowed resolution is reused. -/
def urlCacheTtlSeconds : ℚ := 60

def urlCacheMaxEntries : ℕ := 512

/-- An entry of the cache: when it expires, and the validated addresses. -/
structure CacheEntry where
  expires : ℚ
  addresses : List Text

/-- `_ResolutionCache`, the least recently used entry first. -/
abbrev ResolutionCache := Dict CacheKey CacheEntry

namespace ResolutionCache

/-- `_ResolutionCache.get`. -/
def get (cache : ResolutionCache) (now : ℚ) (key : CacheKey) :
    Option (List Text) × ResolutionCache :=
  match cache.get? key with
  | none => (none, cache)
  | some entry =>
    if entry.expires ≤ now then (none, cache.erase key)
    else (some entry.addresses, cache.set key entry)

/-- The entries that stay when the oldest ones are evicted. -/
def evict (cache : ResolutionCache) : ResolutionCache where
  rows := cache.rows.drop (cache.rows.length - urlCacheMaxEntries)
  nodup := ((List.drop_sublist _ _).map Prod.fst).nodup cache.nodup

/-- `_ResolutionCache.put`. -/
def put (cache : ResolutionCache) (now : ℚ) (key : CacheKey) (addresses : List Text) :
    ResolutionCache :=
  evict (cache.set key ⟨now + urlCacheTtlSeconds, addresses⟩)

end ResolutionCache

/-! ## Calls -/

/-- What a caller asks for, with its own policy. -/
structure Request where
  host : Text
  policy : Policy
  deriving DecidableEq

/-- `PinnedNetworkBackend`: the subnets it was given, or nothing where it reads the
administrator's at every connect. -/
structure Backend where
  allowPrivate : Bool
  fixedSubnets : Option (List Text)
  deriving DecidableEq

/-- Who waits for the addresses: a caller of `pinned_addresses` or `pinned_addresses_async`,
or a `connect_tcp`, which may run with the default login contained. -/
inductive Purpose
  | lookup
  | connect (backend : Backend) (contained : Bool)

/-- Where a call is. -/
inductive Phase
  /-- Before the cache is read. -/
  | looking
  /-- In `resolve_and_check`. -/
  | resolving
  /-- The validated addresses are about to be cached. -/
  | storing (addresses : List Text)
  /-- `connect_tcp` tries the remaining ones of its addresses. -/
  | dialling (answerInside : Bool) (addresses remaining : List Text)

structure Call where
  request : Request
  purpose : Purpose
  phase : Phase

/-- `_ContainedStream`. -/
structure Stream where
  backend : Backend
  address : Text
  answerInside : Bool
  deriving DecidableEq

/-- What can be seen from outside. -/
inductive Event
  | returned (request : Request) (addresses : List Text)
  | dialled (request : Request) (address : Text)
  | opened (request : Request) (addresses : List Text) (stream : Stream)
  /-- Bytes were written, with or without the default login, while the subnets were these. -/
  | sent (stream : Stream) (contained : Bool) (subnets : List Text)
  deriving DecidableEq

structure State where
  cache : ResolutionCache
  now : ℚ
  allowedPrivateSubnets : List Text
  calls : Dict ℕ Call
  streams : List Stream
  log : List Event

/-- The cache is empty at start. -/
def State.initial : State :=
  ⟨Dict.empty, 0, [], Dict.empty, [], []⟩

inductive Label
  | lookup (call : ℕ) (request : Request)
  | connect (call : ℕ) (backend : Backend) (host : Text) (contained : Bool)
  /-- The literal is checked, or the cache read. -/
  | look (call : ℕ)
  /-- The resolver answers, or fails, and the answer is validated. -/
  | resolve (call : ℕ) (answer : Option (List Text))
  | store (call : ℕ)
  /-- The next address is dialled, and the connection opens or fails. -/
  | dial (call : ℕ) (opens : Bool)
  | cancel (call : ℕ)
  | write (stream : ℕ) (contained : Bool)
  /-- `resolved_ips_for` reads the cache. -/
  | peek (request : Request)
  | clearResolutionCache
  | clock (now : ℚ)
  | configure (subnets : List Text)

namespace State

variable (state : State)

/-- `_live_subnets`: the subnets a backend reads now. -/
def liveSubnets (backend : Backend) : List Text :=
  backend.fixedSubnets.getD state.allowedPrivateSubnets

def record (event : Event) : State :=
  { state with log := state.log ++ [event] }

/-- The call ends, with an error or a result. -/
def finish (id : ℕ) : State :=
  { state with calls := state.calls.erase id }

def proceed (id : ℕ) (call : Call) (phase : Phase) : State :=
  { state with calls := state.calls.set id { call with phase } }

/-- The addresses are returned.  `connect_tcp` goes on to dial them, unless the default login
is contained and one is outside the subnets read at this connect. -/
def answer (id : ℕ) (call : Call) (addresses : List Text) : State :=
  let answered := state.record (.returned call.request addresses)
  match call.purpose with
  | .lookup => answered.finish id
  | .connect _ contained =>
    let inside := addresses.all (addressInsideSubnets · call.request.policy.subnets)
    if contained && !inside then answered.finish id
    else answered.proceed id call (.dialling inside addresses addresses)

/-- From the start of a call to the cache: a literal is validated as it is, a cached answer is
returned, otherwise the host has to be resolved. -/
def look (lower : Text → Text) (id : ℕ) (call : Call) : State :=
  match literalIp call.request.host with
  | some literal =>
    match assertAddressAllowed call.request.policy literal with
    | .error _ => state.finish id
    | .ok address => state.answer id call [address.text]
  | none =>
    let found := ResolutionCache.get state.cache state.now
      (cacheKey lower call.request.host call.request.policy)
    let read := { state with cache := found.2 }
    match found.1 with
    | none => read.proceed id call .resolving
    -- An empty answer counts as none.
    | some [] => read.proceed id call .resolving
    | some addresses => read.answer id call addresses

/-- `resolve_and_check`. -/
def resolve (id : ℕ) (call : Call) (answer : Option (List Text)) : State :=
  match resolveAndValidate call.request.policy call.request.host answer with
  | .error _ => state.finish id
  | .ok addresses => state.proceed id call (.storing (addresses.map Address.text))

/-- The validated addresses are cached and returned. -/
def store (lower : Text → Text) (id : ℕ) (call : Call) (addresses : List Text) : State :=
  let key := cacheKey lower call.request.host call.request.policy
  { state with cache := ResolutionCache.put state.cache state.now key addresses }.answer id call
    addresses

/-- One round of the loop of `connect_tcp`. -/
def dial (id : ℕ) (call : Call) (backend : Backend) (inside : Bool) (addresses : List Text)
    (address : Text) (remaining : List Text) (opens : Bool) : State :=
  let dialled := state.record (.dialled call.request address)
  if opens then
    let stream : Stream := ⟨backend, address, inside⟩
    ({ dialled with streams := state.streams ++ [stream] }.record
      (.opened call.request addresses stream)).finish id
  else
    match remaining with
    | [] => dialled.finish id
    | _ => dialled.proceed id call (.dialling inside addresses remaining)

/-- `_ContainedStream.write`: a refused write sends nothing. -/
def write (stream : Stream) (contained : Bool) : State :=
  let subnets := state.liveSubnets stream.backend
  if contained && !(stream.answerInside && addressInsideSubnets stream.address subnets) then state
  else state.record (.sent stream contained subnets)

/-- A call goes on, if it is where the label takes it up. -/
def turn (lower : Text → Text) (label : Label) (id : ℕ) (call : Call) : Option State :=
  match label, call.phase, call.purpose with
  | .look _, .looking, _ => some (state.look lower id call)
  | .resolve _ answer, .resolving, _ => some (state.resolve id call answer)
  | .store _, .storing addresses, _ => some (state.store lower id call addresses)
  | .dial _ opens, .dialling inside addresses (address :: remaining), .connect backend _ =>
    some (state.dial id call backend inside addresses address remaining opens)
  | _, _, _ => none

end State

/-- One step of one of the parties. -/
def step (lower : Text → Text) (state : State) (label : Label) : Option State :=
  match label with
  | .lookup id request =>
    match state.calls.get? id with
    | some _ => none
    | none => some (state.proceed id ⟨request, .lookup, .looking⟩ .looking)
  | .connect id backend host contained =>
    match state.calls.get? id with
    | some _ => none
    | none =>
      -- The subnets are read once, here.
      let policy := ⟨backend.allowPrivate, state.liveSubnets backend⟩
      some (state.proceed id ⟨⟨host, policy⟩, .connect backend contained, .looking⟩ .looking)
  | .look id | .resolve id _ | .store id | .dial id _ =>
    (state.calls.get? id).bind (state.turn lower label id)
  | .cancel id => some (state.finish id)
  | .write stream contained =>
    state.streams[stream]?.map fun stream => state.write stream contained
  | .peek request =>
    let key := cacheKey lower request.host request.policy
    some { state with cache := (ResolutionCache.get state.cache state.now key).2 }
  | .clearResolutionCache => some { state with cache := Dict.empty }
  | .clock now => some { state with now }
  | .configure subnets => some { state with allowedPrivateSubnets := subnets }

/-! ## What holds between the steps -/

variable {after : State}

section Vetted

variable {lower : Text → Text}

/-- Every address passes the guard under the policy. -/
def AllAllowed (policy : Policy) (addresses : List Text) : Prop :=
  ∀ address ∈ addresses, Allowed policy address

/-- Every address lies inside the subnets. -/
def AllInside (subnets addresses : List Text) : Prop :=
  ∀ address ∈ addresses, addressInsideSubnets address subnets = true

/-- An entry passes the guard for every caller that can find it. -/
def CacheVetted (lower : Text → Text) (cache : ResolutionCache) : Prop :=
  ∀ row ∈ cache.rows, ∀ host policy, cacheKey lower host policy = row.1 →
    AllAllowed policy row.2.addresses

/-- What a call has in its hands passed the guard under its own policy. -/
def Call.Vetted (call : Call) : Prop :=
  match call.phase with
  | .looking => True
  | .resolving => True
  | .storing addresses => AllAllowed call.request.policy addresses
  | .dialling inside addresses remaining =>
    AllAllowed call.request.policy addresses ∧ remaining ⊆ addresses ∧
      (inside = true → AllInside call.request.policy.subnets addresses)

def Event.Vetted : Event → Prop
  | .returned request addresses => AllAllowed request.policy addresses
  | .dialled request address => Allowed request.policy address
  | .opened request addresses stream =>
    stream.address ∈ addresses ∧
      (stream.answerInside = true → AllInside request.policy.subnets addresses)
  | .sent stream contained subnets =>
    contained = true →
      stream.answerInside = true ∧ addressInsideSubnets stream.address subnets = true

structure Vetted (lower : Text → Text) (state : State) : Prop where
  cache : CacheVetted lower state.cache
  calls : ∀ id call, state.calls.get? id = some call → call.Vetted
  streams : ∀ stream ∈ state.streams, ∃ request addresses,
    Event.opened request addresses stream ∈ state.log
  sent : ∀ stream contained subnets, Event.sent stream contained subnets ∈ state.log →
    stream ∈ state.streams
  log : ∀ event ∈ state.log, event.Vetted

/-! ### The cache -/

variable {cache : ResolutionCache} {addresses : List Text}

section

variable (hCache : CacheVetted lower cache)
include hCache

theorem CacheVetted.erase (key : CacheKey) : CacheVetted lower (cache.erase key) :=
  fun row hMem => hCache row (List.mem_filter.mp hMem).1

theorem CacheVetted.set {key : CacheKey} {entry : CacheEntry}
    (hEntry : ∀ host policy, cacheKey lower host policy = key →
      AllAllowed policy entry.addresses) : CacheVetted lower (cache.set key entry) :=
  forall_mem_concat (hCache.erase key) hEntry

theorem CacheVetted.evict : CacheVetted lower (ResolutionCache.evict cache) := by
  intro row hMem
  simp only [ResolutionCache.evict] at hMem
  exact hCache row (List.mem_of_mem_drop hMem)

theorem CacheVetted.get (now : ℚ) (key : CacheKey) :
    CacheVetted lower (ResolutionCache.get cache now key).2 ∧
      ∀ addresses, (ResolutionCache.get cache now key).1 = some addresses →
        ∀ host policy, cacheKey lower host policy = key → AllAllowed policy addresses := by
  unfold ResolutionCache.get
  split
  · exact ⟨hCache, nofun⟩
  next entry hGet =>
    have hEntry := hCache _ (Dict.get?_eq_some_iff.mp hGet)
    split
    · exact ⟨hCache.erase key, nofun⟩
    · refine ⟨hCache.set hEntry, ?_⟩
      intro addresses hFound
      cases hFound
      exact hEntry

theorem CacheVetted.put (now : ℚ) {host : Text} {policy : Policy}
    (hAllowed : AllAllowed policy addresses) :
    CacheVetted lower (ResolutionCache.put cache now (cacheKey lower host policy) addresses) := by
  refine (hCache.set ?_).evict
  intro otherHost otherPolicy hKey address hMem
  obtain ⟨ip, hOk⟩ := hAllowed address hMem
  exact ⟨ip, by rw [assertAddressAllowed_of_cacheKey hKey, hOk]⟩

end

/-! ### The calls -/

variable {state : State} {id : ℕ} {call : Call}

section

variable (hVetted : Vetted lower state)
include hVetted

theorem Vetted.finish (id : ℕ) : Vetted lower (state.finish id) := { hVetted with
  calls := fun other call hGet => hVetted.calls other call (Dict.of_get?_erase hGet).2 }

theorem Vetted.proceed {phase : Phase} (hPhase : Call.Vetted { call with phase }) :
    Vetted lower (state.proceed id call phase) := { hVetted with
  calls := Dict.forall_set hPhase hVetted.calls }

theorem Vetted.record {event : Event} (hEvent : event.Vetted)
    (hSent : ∀ stream contained subnets, event = .sent stream contained subnets →
      stream ∈ state.streams) : Vetted lower (state.record event) := { hVetted with
  streams := by
    intro stream hMem
    obtain ⟨request, addresses, hOpened⟩ := hVetted.streams stream hMem
    exact ⟨request, addresses, List.mem_append_left _ hOpened⟩
  sent := by
    intro stream contained subnets hMem
    obtain hOld | hNew := List.mem_append.mp hMem
    · exact hVetted.sent stream contained subnets hOld
    · exact hSent stream contained subnets (List.mem_singleton.mp hNew).symm
  log := forall_mem_concat hVetted.log hEvent }

theorem Vetted.withCache (hCache : CacheVetted lower cache) :
    Vetted lower { state with cache } := { hVetted with
  cache := hCache }

theorem Vetted.answer (hAllowed : AllAllowed call.request.policy addresses) :
    Vetted lower (state.answer id call addresses) := by
  have hReturned : Vetted lower (state.record (.returned call.request addresses)) :=
    hVetted.record hAllowed nofun
  unfold State.answer
  split
  · exact hReturned.finish id
  · simp only
    split
    · exact hReturned.finish id
    · refine hReturned.proceed ⟨hAllowed, List.Subset.refl _, ?_⟩
      intro hInside
      exact List.all_eq_true.mp hInside

theorem Vetted.look : Vetted lower (state.look lower id call) := by
  unfold State.look
  split
  · split
    · exact hVetted.finish id
    next address hOk =>
      refine hVetted.answer ?_
      intro text hMem
      rw [List.mem_singleton.mp hMem]
      exact ⟨address, assertAddressAllowed_text hOk⟩
  · obtain ⟨hCache, hFound⟩ := hVetted.cache.get state.now
      (cacheKey lower call.request.host call.request.policy)
    have hRead := hVetted.withCache hCache
    simp only
    split
    · exact hRead.proceed trivial
    · exact hRead.proceed trivial
    next addresses _ hSome => exact hRead.answer (hFound addresses hSome _ _ rfl)

theorem Vetted.resolve (answer : Option (List Text)) :
    Vetted lower (state.resolve id call answer) := by
  unfold State.resolve
  split
  · exact hVetted.finish id
  next addresses hOk => exact hVetted.proceed (resolveAndValidate_text hOk)

theorem Vetted.store (hAllowed : AllAllowed call.request.policy addresses) :
    Vetted lower (state.store lower id call addresses) :=
  (hVetted.withCache (hVetted.cache.put state.now hAllowed)).answer hAllowed

theorem Vetted.dial {backend : Backend} {inside opens : Bool}
    {remaining : List Text} {address : Text}
    (hCall : Call.Vetted { call with phase := .dialling inside addresses (address :: remaining) }) :
    Vetted lower (state.dial id call backend inside addresses address remaining opens) := by
  obtain ⟨hAllowed, hRemaining, hInside⟩ := hCall
  have hMem : address ∈ addresses := hRemaining List.mem_cons_self
  have hDialled : Vetted lower (state.record (.dialled call.request address)) :=
    hVetted.record (hAllowed address hMem) nofun
  unfold State.dial
  split
  · -- The new stream is the one the log gets.
    refine Vetted.finish ?_ id
    refine ⟨hVetted.cache, hVetted.calls, ?_, ?_, forall_mem_concat hDialled.log ⟨hMem, hInside⟩⟩
    · refine forall_mem_concat ?_ ⟨call.request, addresses, List.mem_concat_self⟩
      intro stream hOld
      obtain ⟨request, others, hOpened⟩ := hDialled.streams stream hOld
      exact ⟨request, others, List.mem_append_left _ hOpened⟩
    · intro stream contained subnets hSent
      obtain hOld | hNew := List.mem_append.mp hSent
      · exact List.mem_append_left _ (hDialled.sent stream contained subnets hOld)
      · cases List.mem_singleton.mp hNew
  · split
    · exact hDialled.finish id
    · refine hDialled.proceed ⟨hAllowed, ?_, hInside⟩
      exact fun other hOther => hRemaining (List.mem_cons_of_mem _ hOther)

theorem Vetted.write {stream : Stream} (hStream : stream ∈ state.streams) (contained : Bool) :
    Vetted lower (state.write stream contained) := by
  unfold State.write
  simp only
  split
  · exact hVetted
  next hAllowed =>
    refine hVetted.record ?_ ?_
    · rintro rfl
      simpa using hAllowed
    · rintro other _ _ hSame
      cases hSame
      exact hStream

end

/-! ### The steps -/

theorem vetted_initial : Vetted lower State.initial where
  cache := nofun
  calls := nofun
  streams := nofun
  sent := nofun
  log := nofun

theorem Vetted.turn {label : Label} (hVetted : Vetted lower state)
    (hGet : state.calls.get? id = some call)
    (hTurn : state.turn lower label id call = some after) : Vetted lower after := by
  have hCall := hVetted.calls id call hGet
  unfold State.turn at hTurn
  split at hTurn
  · cases hTurn
    exact hVetted.look
  · cases hTurn
    exact hVetted.resolve _
  next hPhase =>
    cases hTurn
    -- What is stored was resolved by this call, and every address of it was let through.
    rw [Call.Vetted, hPhase] at hCall
    exact hVetted.store hCall
  next hPhase _ =>
    cases hTurn
    -- The address that is dialled is one of those the call was given.
    rw [Call.Vetted, hPhase] at hCall
    exact hVetted.dial hCall
  · cases hTurn

theorem vetted_of_step {label : Label} (hVetted : Vetted lower state)
    (hStep : step lower state label = some after) : Vetted lower after := by
  cases label with simp only [step] at hStep
  | lookup | connect =>
    split at hStep
    · cases hStep
    · cases hStep
      exact hVetted.proceed trivial
  | look | resolve | store | dial =>
    obtain ⟨call, hGet, hTurn⟩ := Option.bind_eq_some_iff.mp hStep
    exact hVetted.turn hGet hTurn
  | cancel id =>
    cases hStep
    exact hVetted.finish id
  | write stream contained =>
    obtain ⟨found, hFound, rfl⟩ := Option.map_eq_some_iff.mp hStep
    exact hVetted.write (List.mem_of_getElem? hFound) contained
  | peek request =>
    cases hStep
    exact hVetted.withCache (hVetted.cache.get _ _).1
  | clearResolutionCache =>
    cases hStep
    exact hVetted.withCache nofun
  | clock | configure =>
    cases hStep
    exact { hVetted with }

theorem vetted_of_run {labels : List Label}
    (hRun : Run (Steps (step lower)) State.initial labels after) : Vetted lower after :=
  hRun.invariant (Vetted lower) (fun _ _ _ hVetted hStep => vetted_of_step hVetted hStep)
    vetted_initial

end Vetted

/-! ## Results -/

/-- In every run, whoever filled the cache and whatever the resolver answered: an address a
call returns passes the guard under that caller's policy, `connect_tcp` dials only addresses
that pass it with the subnets it read, and a stream is marked as contained only if every
address its connect could dial lies inside them. -/
theorem pinned_calls_vetted {lower : Text → Text} {labels : List Label} {after : State}
    (hRun : Run (Steps (step lower)) State.initial labels after) :
    (∀ request addresses, Event.returned request addresses ∈ after.log →
      ∀ address ∈ addresses, ∃ ip, assertAddressAllowed request.policy address = .ok ip) ∧
    (∀ request address, Event.dialled request address ∈ after.log →
      ∃ ip, assertAddressAllowed request.policy address = .ok ip) ∧
    (∀ request addresses stream, Event.opened request addresses stream ∈ after.log →
      stream.address ∈ addresses ∧
        (stream.answerInside = true → ∀ address ∈ addresses,
          addressInsideSubnets address request.policy.subnets = true)) := by
  have hVetted := vetted_of_run hRun
  refine ⟨?_, ?_, ?_⟩
  · intro request addresses hReturned
    exact hVetted.log _ hReturned
  · intro request address hDialled
    exact hVetted.log _ hDialled
  · intro request addresses stream hOpened
    exact hVetted.log _ hOpened

/-- `str.lower` on ASCII text. -/
def asciiLower (text : Text) : Text :=
  text.map Char.toLower

/-- A lookup, and the policy it is made under. -/
def sharedLookup : Request :=
  ⟨"cam.lan".toList, true, ["192.168.0.0/16 ".toList, "10.0.0.0/8".toList]⟩

/-- A connect to the same host, its name and its subnets spelled otherwise. -/
def sharedConnect : Request :=
  ⟨"CAM.lan.".toList, true, ["10.0.0.0/8".toList, "192.168.0.0/16".toList, "10.0.0.0/8".toList]⟩

/-- The lookup fills the cache and the connect dials from it, without an answer of its own. -/
def sharedLabels : List Label :=
  [.lookup 0 sharedLookup, .look 0, .resolve 0 (some ["10.0.0.7".toList]), .store 0,
    .configure sharedConnect.policy.subnets, .connect 1 ⟨true, none⟩ sharedConnect.host true,
    .look 1, .dial 1 true]

def sharedLog : List Event :=
  [.returned sharedLookup ["10.0.0.7".toList], .returned sharedConnect ["10.0.0.7".toList],
    .dialled sharedConnect "10.0.0.7".toList,
    .opened sharedConnect ["10.0.0.7".toList] ⟨⟨true, none⟩, "10.0.0.7".toList, true⟩]

/-- A connect finds what another caller cached; what it dials passes the guard under its own
policy and lies inside its own subnets. -/
theorem pinned_calls_vetted_shared :
    ∃ after, Run (Steps (step asciiLower)) State.initial sharedLabels after ∧
        after.log = sharedLog ∧
      (∃ ip, assertAddressAllowed sharedConnect.policy "10.0.0.7".toList = .ok ip) ∧
      addressInsideSubnets "10.0.0.7".toList sharedConnect.policy.subnets = true := by
  have hExec : (exec (step asciiLower) State.initial sharedLabels).map State.log =
      some sharedLog := by decide +kernel
  obtain ⟨after, hAfter, hLog⟩ := Option.map_eq_some_iff.mp hExec
  have hRun := Run.of_steps hAfter
  obtain ⟨_, hDialled, hOpened⟩ := pinned_calls_vetted hRun
  refine ⟨after, hRun, hLog, hDialled sharedConnect _ ?_, ?_⟩
  · rw [hLog]
    simp [sharedLog]
  · refine (hOpened sharedConnect ["10.0.0.7".toList] ⟨⟨true, none⟩, "10.0.0.7".toList, true⟩
      ?_).2 rfl _ List.mem_cons_self
    rw [hLog]
    simp [sharedLog]

/-- In every run a default login goes only to an address inside the subnets read for the write,
over a stream that was opened with every address inside those of its connect. -/
theorem default_login_stays_inside {lower : Text → Text} {labels : List Label}
    (hRun : Run (Steps (step lower)) State.initial labels after) {stream : Stream}
    {subnets : List Text}
    (hSent : Event.sent stream true subnets ∈ after.log) :
    addressInsideSubnets stream.address subnets = true ∧
      ∃ request addresses, Event.opened request addresses stream ∈ after.log ∧
        stream.address ∈ addresses ∧ AllInside request.policy.subnets addresses := by
  have hVetted := vetted_of_run hRun
  obtain ⟨hMarked, hInside⟩ := hVetted.log _ hSent rfl
  obtain ⟨request, addresses, hOpened⟩ := hVetted.streams stream (hVetted.sent _ _ _ hSent)
  obtain ⟨hDialled, hAnswer⟩ := hVetted.log _ hOpened
  exact ⟨hInside, request, addresses, hOpened, hDialled, hAnswer hMarked⟩

theorem default_login_stays_inside_shared :
    addressInsideSubnets "10.0.0.7".toList sharedConnect.policy.subnets = true := by
  have hEnds : ∃ after ∈ exec (step asciiLower) State.initial (sharedLabels ++ [.write 0 true]),
      .sent ⟨⟨true, none⟩, "10.0.0.7".toList, true⟩ true sharedConnect.policy.subnets ∈
        after.log := by decide +kernel
  obtain ⟨after, hExec, hSent⟩ := hEnds
  exact (default_login_stays_inside (Run.of_steps hExec) hSent).1

end TimelapseManager.Security.PinnedHttp
