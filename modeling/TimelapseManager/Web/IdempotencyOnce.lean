import TimelapseManager.Web.Idempotency

/-!
# One execution per key

While a request holds a reservation its entry stays in the cache, so every other request with the
key finds it there; a response is stored under the key until its ttl is over.

* `Sound` is the invariant, `Sound.step` that every timely step in a cache with room keeps it.
* `runs_once` is the result about the runs of such steps, `outlived_reservation` a run of a handler
  that takes longer than its reservation.
-/

namespace TimelapseManager.Web.Idempotency

open KeyedRows Runs

variable {Digest : Type}

/-! ## The invariant -/

/-- The entry is the reservation of the request. -/
structure Entry.Holds (limits : Limits) (entry : Entry Digest) (id : ℕ) (reserved : ℚ) : Prop where
  owner : entry.owner = id
  response : entry.response = none
  expiresAt : entry.expiresAt = reserved + limits.ttl

/-- The request is about to complete what its handler returned at a time. -/
def Phase.Awaits (phase : Phase) (time : ℚ) : Prop :=
  (∃ reserved response, phase = .returned reserved response) ∨
    ∃ reserved response now, phase = .completing reserved response now ∧ time ≤ now

/-- What keeps another execution from a success on the key within the ttl: the execution is about
to complete, its response is stored, or the ttl is over. -/
def Settled (limits : Limits) (state : State Digest) (success : Success) : Prop :=
  (∃ request, state.requests.get? success.request = some request ∧ request.key = success.key ∧
    request.phase.Awaits success.at_) ∨
  (∃ entry, state.entries.get? success.key = some entry ∧ entry.response ≠ none ∧
    success.at_ + limits.ttl ≤ entry.expiresAt) ∨
  success.at_ + limits.ttl ≤ state.clock

/-- Every request that holds a reservation has its entry in the cache, and successes on one key are
a ttl apart. -/
structure Sound (limits : Limits) (state : State Digest) : Prop where
  arrived : ∀ id request now, state.requests.get? id = some request →
    request.phase = .arrived now → now ≤ state.clock
  held : ∀ id request reserved, state.requests.get? id = some request →
    request.phase.reserved = some reserved →
    state.clock < reserved + limits.ttl ∧
      ∃ entry, state.entries.get? request.key = some entry ∧ entry.Holds limits id reserved
  past : ∀ success ∈ state.successes, success.at_ ≤ state.clock
  settled : ∀ success ∈ state.successes, Settled limits state success
  apart : state.successes.Pairwise fun later earlier =>
    later.key = earlier.key → earlier.at_ + limits.ttl ≤ later.at_

section Steps

variable {limits : Limits} {state : State Digest} {id : ℕ} {request : Request Digest}

theorem Sound.initial (clock : ℚ) : Sound limits (State.initial clock : State Digest) where
  arrived := by
    intro id request now hGet
    cases hGet
  held := by
    intro id request reserved hGet
    cases hGet
  past := by simp [State.initial]
  settled := by simp [State.initial]
  apart := List.Pairwise.nil

theorem Sound.unique (hSound : Sound limits state) {other : ℕ} {second : Request Digest}
    {reserved since : ℚ} (hGet : state.requests.get? id = some request)
    (hReserved : request.phase.reserved = some reserved)
    (hOther : state.requests.get? other = some second) (hSince : second.phase.reserved = some since)
    (hKey : request.key = second.key) : id = other := by
  obtain ⟨-, entry, hEntry, hHolds⟩ := hSound.held id request reserved hGet hReserved
  obtain ⟨-, found, hFound, hHeld⟩ := hSound.held other second since hOther hSince
  rw [hKey, hFound] at hEntry
  obtain rfl := Option.some.inj hEntry
  exact hHolds.owner.symm.trans hHeld.owner

variable {phase : Phase} {now : ℚ} {entries : Dict CacheKey (Entry Digest)} {key : CacheKey}

theorem Phase.Awaits.reserved {time : ℚ} (hAwaits : phase.Awaits time) :
    ∃ reserved, phase.reserved = some reserved := by
  rcases hAwaits with ⟨reserved, response, rfl⟩ | ⟨reserved, response, now, rfl, -⟩
  · exact ⟨reserved, rfl⟩
  · exact ⟨reserved, rfl⟩

theorem not_awaits_of_reserved {time : ℚ} (hReserved : phase.reserved = none) :
    ¬phase.Awaits time := by
  intro hAwaits
  obtain ⟨reserved, hSome⟩ := hAwaits.reserved
  rw [hReserved] at hSome
  cases hSome

theorem get?_setPhase_self (hGet : state.requests.get? id = some request) (phase : Phase) :
    (state.setPhase id phase).requests.get? id = some { request with phase := phase } := by
  unfold State.setPhase
  simp only [Dict.get?_modify_self, hGet, Option.map_some]

theorem get?_setPhase_of_ne {other : ℕ} (hOther : other ≠ id) (phase : Phase) :
    (state.setPhase id phase).requests.get? other = state.requests.get? other :=
  Dict.get?_modify_of_ne hOther

theorem of_get?_setPhase (hGet : state.requests.get? id = some request) {other : ℕ}
    {found : Request Digest} (hFound : (state.setPhase id phase).requests.get? other = some found) :
    (other = id ∧ found = { request with phase := phase }) ∨
      (other ≠ id ∧ state.requests.get? other = some found) := by
  by_cases hSame : other = id
  · rw [hSame, get?_setPhase_self hGet] at hFound
    exact Or.inl ⟨hSame, (Option.some.inj hFound).symm⟩
  · rw [get?_setPhase_of_ne hSame] at hFound
    exact Or.inr ⟨hSame, hFound⟩

theorem get?_purgeExpired {entry : Entry Digest} {clock : ℚ} (hNow : now ≤ clock)
    (hEntry : entries.get? key = some entry) :
    (purgeExpired entries now).get? key = some entry ∨ entry.expiresAt ≤ clock := by
  by_cases hExpired : entry.expiresAt ≤ now
  · exact Or.inr (hExpired.trans hNow)
  · refine Or.inl ?_
    unfold purgeExpired
    rw [Dict.get?_keep, hEntry]
    simp [hExpired]

theorem purgeExpired_eq {clock : ℚ} (hNow : now ≤ clock)
    (hNone : ∀ row ∈ entries.rows, row.2.expiresAt ≤ clock → row.2.expiresAt ≤ now) :
    purgeExpired entries now = purgeExpired entries clock := by
  unfold purgeExpired Dict.keep
  congr 1
  refine List.filter_congr ?_
  intro row hMem
  have hIff : row.2.expiresAt ≤ now ↔ row.2.expiresAt ≤ clock :=
    ⟨fun hExpired => hExpired.trans hNow, hNone row hMem⟩
  simp only [hIff]

theorem get?_complete_of_ne {other : CacheKey} (hOther : other ≠ key) (response : StoredResponse)
    (now : ℚ) : (complete limits entries key response now).get? other = entries.get? other := by
  unfold complete
  split
  · rfl
  · exact Dict.get?_set_of_ne hOther

theorem get?_release_of_ne {other : CacheKey} (hOther : other ≠ key) :
    (release entries key).get? other = entries.get? other := by
  unfold release
  split
  · rfl
  · split
    · exact Dict.get?_erase_of_ne hOther
    · rfl

section

variable (hSound : Sound limits state)
include hSound

theorem Sound.tick (hClock : state.clock ≤ now)
    (hTimely : Timely limits state (.tick now)) : Sound limits { state with clock := now } where
  arrived := by
    intro id request time hGet hPhase
    exact (hSound.arrived id request time hGet hPhase).trans hClock
  held := by
    intro id request reserved hGet hPhase
    exact ⟨hTimely (id, request) (Dict.get?_eq_some_iff.mp hGet) reserved hPhase,
      (hSound.held id request reserved hGet hPhase).2⟩
  past := by
    intro success hMem
    exact (hSound.past success hMem).trans hClock
  settled := by
    intro success hMem
    rcases hSound.settled success hMem with hAwaits | hStored | hOver
    · exact Or.inl hAwaits
    · exact Or.inr (Or.inl hStored)
    · exact Or.inr (Or.inr (hOver.trans hClock))
  apart := hSound.apart

theorem Sound.send (hNew : state.requests.get? id = none)
    (hReserved : request.phase.reserved = none)
    (hArrived : ∀ now, request.phase = .arrived now → now = state.clock) :
    Sound limits { state with requests := state.requests.set id request } := { hSound with
  arrived := by
    intro other found now hFound hPhase
    rcases Dict.of_get?_set hFound with ⟨-, rfl⟩ | ⟨-, hOld⟩
    · exact le_of_eq (hArrived now hPhase)
    · exact hSound.arrived other found now hOld hPhase
  held := by
    intro other found reserved hFound hPhase
    rcases Dict.of_get?_set hFound with ⟨-, rfl⟩ | ⟨-, hOld⟩
    · rw [hReserved] at hPhase
      cases hPhase
    · exact hSound.held other found reserved hOld hPhase
  settled := by
    intro success hMem
    rcases hSound.settled success hMem with ⟨found, hFound, hAwaits⟩ | hStored | hOver
    · have hOther : success.request ≠ id := by
        intro hSame
        rw [hSame, hNew] at hFound
        cases hFound
      exact Or.inl ⟨found, by simp only [Dict.get?_set_of_ne hOther]; exact hFound, hAwaits⟩
    · exact Or.inr (Or.inl hStored)
    · exact Or.inr (Or.inr hOver) }

variable (hGet : state.requests.get? id = some request) {reserved : ℚ}
include hGet

/-- A request goes on in another phase.  The cache may lose what has expired and what the request
itself has reserved; what the request holds then is in the cache, and a success it was to complete
is one it still is to complete, or is stored. -/
theorem Sound.move (hArrived : ∀ now, phase ≠ .arrived now)
    (hEntries : ∀ key entry, state.entries.get? key = some entry →
      entries.get? key = some entry ∨ entry.expiresAt ≤ state.clock ∨
        (entry.owner = id ∧ entry.response = none))
    (hOwn : ∀ reserved, phase.reserved = some reserved → state.clock < reserved + limits.ttl ∧
      ∃ entry, entries.get? request.key = some entry ∧ entry.Holds limits id reserved)
    (hAwaits : ∀ time ≤ state.clock, request.phase.Awaits time → phase.Awaits time ∨
      ∃ entry, entries.get? request.key = some entry ∧ entry.response ≠ none ∧
        time + limits.ttl ≤ entry.expiresAt) :
    Sound limits ({ state with entries := entries }.setPhase id phase) := { hSound with
  arrived := by
    intro other found now hFound hPhase
    rcases of_get?_setPhase hGet hFound with ⟨-, rfl⟩ | ⟨-, hOld⟩
    · exact absurd hPhase (hArrived now)
    · exact hSound.arrived other found now hOld hPhase
  held := by
    intro other found reserved hFound hPhase
    rcases of_get?_setPhase hGet hFound with ⟨rfl, rfl⟩ | ⟨hOther, hOld⟩
    · exact hOwn reserved hPhase
    · obtain ⟨hClock, entry, hEntry, hHolds⟩ := hSound.held other found reserved hOld hPhase
      refine ⟨hClock, entry, ?_, hHolds⟩
      rcases hEntries found.key entry hEntry with hStays | hExpired | ⟨hOwner, -⟩
      · exact hStays
      · rw [hHolds.expiresAt] at hExpired
        exact absurd hClock (not_lt.mpr hExpired)
      · exact absurd (hHolds.owner.symm.trans hOwner) hOther
  settled := by
    intro success hMem
    rcases hSound.settled success hMem with ⟨found, hFound, hKey, hPhase⟩ |
      ⟨entry, hEntry, hResponse, hLater⟩ | hOver
    · by_cases hSame : success.request = id
      · rw [hSame, hGet] at hFound
        cases hFound
        rcases hAwaits success.at_ (hSound.past success hMem) hPhase with hStill | hStored
        · refine Or.inl ⟨{ request with phase := phase }, ?_, hKey, hStill⟩
          rw [hSame]
          exact get?_setPhase_self hGet phase
        · rw [hKey] at hStored
          exact Or.inr (Or.inl hStored)
      · exact Or.inl ⟨found, (get?_setPhase_of_ne hSame phase).trans hFound, hKey, hPhase⟩
    · rcases hEntries success.key entry hEntry with hStays | hExpired | ⟨-, hNone⟩
      · exact Or.inr (Or.inl ⟨entry, hStays, hResponse, hLater⟩)
      · exact Or.inr (Or.inr (hLater.trans hExpired))
      · exact absurd hNone hResponse
    · exact Or.inr (Or.inr hOver) }

theorem Sound.setPhase (hArrived : ∀ now, phase ≠ .arrived now)
    (hReserved : ∀ reserved, phase.reserved = some reserved →
      request.phase.reserved = some reserved)
    (hAwaits : ∀ time ≤ state.clock, request.phase.Awaits time → phase.Awaits time) :
    Sound limits (state.setPhase id phase) :=
  hSound.move hGet hArrived (fun _ _ hEntry => Or.inl hEntry)
    (fun reserved hPhase => hSound.held id request reserved hGet (hReserved reserved hPhase))
    fun time hTime hPhase => Or.inl (hAwaits time hTime hPhase)

/-- A request that holds nothing is answered. -/
theorem Sound.refuse (hReserved : request.phase.reserved = none) (answer : Answer) :
    Sound limits (state.setPhase id (.finished answer)) :=
  hSound.setPhase hGet (by simp) (by simp [Phase.reserved]) fun _ _ hAwaits =>
    absurd hAwaits (not_awaits_of_reserved hReserved)

theorem Sound.goOn (hOld : request.phase.reserved = some reserved)
    (hNew : phase.reserved = some reserved)
    (hAwaits : ∀ time ≤ state.clock, request.phase.Awaits time → phase.Awaits time) :
    Sound limits (state.setPhase id phase) := by
  refine hSound.setPhase hGet ?_ ?_ hAwaits
  · rintro now rfl
    cases hNew
  · intro since hSince
    rw [hOld, ← hNew, hSince]

theorem Sound.succeed (hPhase : request.phase = .running reserved) (response : StoredResponse) :
    Sound limits { state.setPhase id (.returned reserved response) with
      successes := ⟨id, request.key, state.clock⟩ :: state.successes } := by
  have hReserved : request.phase.reserved = some reserved := by
    rw [hPhase]
    rfl
  have hMoved : Sound limits (state.setPhase id (.returned reserved response)) :=
    hSound.goOn hGet hReserved rfl fun _ _ _ => Or.inl ⟨reserved, response, rfl⟩
  refine ⟨hMoved.arrived, hMoved.held, ?_, ?_, ?_⟩
  · exact List.forall_mem_cons.mpr ⟨le_refl state.clock, hSound.past⟩
  · refine List.forall_mem_cons.mpr ⟨?_, hMoved.settled⟩
    exact Or.inl ⟨_, get?_setPhase_self hGet _, rfl, Or.inl ⟨reserved, response, rfl⟩⟩
  · refine List.pairwise_cons.mpr ⟨?_, hSound.apart⟩
    intro success hMem hKey
    obtain ⟨-, entry, hEntry, hHolds⟩ := hSound.held id request reserved hGet hReserved
    rcases hSound.settled success hMem with ⟨found, hFound, hFoundKey, hAwaits⟩ |
      ⟨stored, hStored, hResponse, -⟩ | hOver
    · -- The earlier execution would hold the same reservation.
      obtain ⟨since, hSince⟩ := hAwaits.reserved
      have hSame := hSound.unique hGet hReserved hFound hSince (hKey.trans hFoundKey.symm)
      rw [← hSame, hGet] at hFound
      cases hFound
      rw [hPhase] at hAwaits
      simp [Phase.Awaits] at hAwaits
    · rw [← hKey, hEntry] at hStored
      cases hStored
      exact absurd hHolds.response hResponse
    · exact hOver

theorem Sound.finish (hReserved : request.phase.reserved = some reserved)
    (hOthers : ∀ key, key ≠ request.key → entries.get? key = state.entries.get? key)
    (hStored : ∀ time, request.phase.Awaits time → ∃ entry,
      entries.get? request.key = some entry ∧ entry.response ≠ none ∧
        time + limits.ttl ≤ entry.expiresAt) (answer : Answer) :
    Sound limits ({ state with entries := entries }.setPhase id (.finished answer)) := by
  refine hSound.move hGet (by simp) ?_ (by simp [Phase.reserved])
    fun time _ hAwaits => Or.inr (hStored time hAwaits)
  intro key entry hEntry
  by_cases hKey : key = request.key
  · subst hKey
    obtain ⟨-, own, hOwn, hHolds⟩ := hSound.held id request reserved hGet hReserved
    rw [hOwn] at hEntry
    cases hEntry
    exact Or.inr (Or.inr ⟨hHolds.owner, hHolds.response⟩)
  · exact Or.inl ((hOthers key hKey).trans hEntry)

theorem Sound.complete {response : StoredResponse}
    (hPhase : request.phase = .completing reserved response now) :
    Sound limits ({ state with
      entries := Idempotency.complete limits state.entries request.key response now }.setPhase id
        (.finished (.own response))) := by
  have hReserved : request.phase.reserved = some reserved := by
    rw [hPhase]
    rfl
  refine hSound.finish hGet hReserved (fun key hOther => get?_complete_of_ne hOther _ _) ?_ _
  intro time hAwaits
  obtain ⟨-, entry, hEntry, -⟩ := hSound.held id request reserved hGet hReserved
  refine ⟨{ entry with response := some response, expiresAt := now + limits.ttl }, ?_, by simp, ?_⟩
  · unfold Idempotency.complete
    rw [hEntry]
    exact Dict.get?_set_self
  · rw [hPhase] at hAwaits
    rcases hAwaits with ⟨_, _, hNot⟩ | ⟨_, _, _, hSame, hTime⟩
    · cases hNot
    · cases hSame
      exact add_le_add_left hTime limits.ttl

theorem Sound.release {answer : Answer} (hPhase : request.phase = .releasing reserved answer) :
    Sound limits ({ state with
      entries := Idempotency.release state.entries request.key }.setPhase id
        (.finished answer)) := by
  have hReserved : request.phase.reserved = some reserved := by
    rw [hPhase]
    rfl
  refine hSound.finish hGet hReserved (fun key hOther => get?_release_of_ne hOther) ?_ _
  intro time hAwaits
  rw [hPhase] at hAwaits
  simp [Phase.Awaits] at hAwaits

/-- Without a success the reservation is to be given back. -/
theorem Sound.giveBack
    (hPhase : request.phase = .running reserved) (answer : Answer) :
    Sound limits (state.setPhase id (.releasing reserved answer)) := by
  refine hSound.goOn hGet (by rw [hPhase]; rfl) rfl ?_
  rintro time - hAwaits
  rw [hPhase] at hAwaits
  simp [Phase.Awaits] at hAwaits

theorem Sound.stamp
    {response : StoredResponse} (hPhase : request.phase = .returned reserved response) :
    Sound limits (state.setPhase id (.completing reserved response state.clock)) := by
  refine hSound.goOn hGet (by rw [hPhase]; rfl) rfl ?_
  intro time hTime _
  exact Or.inr ⟨reserved, response, state.clock, rfl, hTime⟩

theorem Sound.reserve [DecidableEq Digest] (hPhase : request.phase = .arrived now)
    (hFits : Fits limits state (.reserve id)) (hTimely : Timely limits state (.reserve id)) :
    Sound limits (state.reserve limits id request now) := by
  have hNow := hSound.arrived id request now hGet hPhase
  have hArrival : request.phase.arrival = some now := by
    rw [hPhase]
    rfl
  obtain ⟨hClock, hNone⟩ := hTimely request hGet now hArrival
  have hIdle : ∀ time, ¬request.phase.Awaits time := by
    intro time
    rw [hPhase]
    exact not_awaits_of_reserved rfl
  -- What the purge leaves is still there when the key is entered, or entered again.
  have hSet : ∀ entry, (∀ found, (purgeExpired state.entries now).get? request.key = some found →
      found = entry) → ∀ key found, state.entries.get? key = some found →
      ((purgeExpired state.entries now).set request.key entry).get? key = some found ∨
        found.expiresAt ≤ state.clock ∨ (found.owner = id ∧ found.response = none) := by
    intro entry hSame key found hFound
    rcases get?_purgeExpired hNow hFound with hStays | hExpired
    · refine Or.inl ?_
      by_cases hKey : key = request.key
      · subst hKey
        rw [Dict.get?_set_self, hSame found hStays]
      · rw [Dict.get?_set_of_ne hKey, hStays]
    · exact Or.inr (Or.inl hExpired)
  unfold State.reserve
  simp only
  split
  next entry hEntry =>
    have hAnswered : ∀ answer, Sound limits ({ state with
        entries := (purgeExpired state.entries now).set request.key entry }.setPhase id
          (.finished answer)) := by
      intro answer
      refine hSound.move hGet (by simp) (hSet entry ?_) (by simp [Phase.reserved]) ?_
      · exact fun found hFound => Option.some.inj (hFound.symm.trans hEntry)
      · exact fun time _ hAwaits => absurd hAwaits (hIdle time)
    split
    · exact hAnswered _
    · split
      · exact hAnswered _
      · exact hAnswered _
  next hFree =>
    have hRoom := hFits request hGet
    rw [← purgeExpired_eq hNow hNone] at hRoom
    have hFew : ((purgeExpired state.entries now).set request.key
        ⟨request.fingerprint, now + limits.ttl, none, id⟩).rows.length ≤ limits.maxEntries := by
      rw [Dict.length_set]
      exact hRoom
    rw [Dict.newest_eq_self hFew]
    refine hSound.move hGet (by simp) (hSet _ (by simp [hFree])) ?_ ?_
    · intro reserved hReserved
      cases hReserved
      exact ⟨hClock, _, Dict.get?_set_self, rfl, rfl, rfl⟩
    · exact fun time _ hAwaits => absurd hAwaits (hIdle time)

end

section

variable (hSound : Sound limits state)
include hSound

section

variable [DecidableEq Digest] {sha256 : Text → Digest} {after : State Digest}

/-- A new request holds nothing yet: it has no key, or a key that is refused, or has still to
reserve. -/
theorem Sound.stepSend {user : ℕ} {route : Text} {header : Option Text}
    {form : List (Text × Text)}
    (hStep : Idempotency.step limits sha256 state (.send id user route header form) = some after) :
    Sound limits after := by
  simp only [Idempotency.step, Option.ite_none_left_eq_some, not_not] at hStep
  obtain ⟨hNew, hStep⟩ := hStep
  cases header with cases hStep
  | none => exact hSound.send hNew rfl (by simp)
  | some raw =>
    by_cases hKey : isKey raw = true
    all_goals
      refine hSound.send hNew ?_ ?_
      · simp [hKey, Phase.reserved]
      · simp [hKey]

/-- Every stretch of a request is of one phase. -/
theorem Sound.turn {label : Label} {request : Request Digest}
    (hId : label.request? = some id) (hGet : state.requests.get? id = some request)
    (hTurn : state.turn limits label request = some after) (hFits : Fits limits state label)
    (hTimely : Timely limits state label) : Sound limits after := by
  unfold State.turn at hTurn
  split at hTurn <;> cases hTurn <;> cases hId
  next hPhase => exact hSound.reserve hGet hPhase hFits hTimely
  next hPhase => exact hSound.refuse hGet (by rw [hPhase]; rfl) _
  next hPhase =>
    -- A 2xx response is a success; after any other the reservation is given back.
    split
    · exact hSound.succeed hGet hPhase _
    · exact hSound.giveBack hGet hPhase _
  next hPhase => exact hSound.refuse hGet (by rw [hPhase]; rfl) _
  next hPhase => exact hSound.giveBack hGet hPhase _
  next hPhase => exact hSound.stamp hGet hPhase
  next hPhase => exact hSound.complete hGet hPhase
  next hPhase => exact hSound.release hGet hPhase

theorem Sound.step {label : Label} (hStep : Steps (step limits sha256) state label after)
    (hFits : Fits limits state label) (hTimely : Timely limits state label) :
    Sound limits after := by
  unfold Steps at hStep
  cases label with
  | tick now =>
    obtain ⟨hClock, rfl⟩ := of_guard hStep
    exact hSound.tick hClock hTimely
  | send id user route header form => exact hSound.stepSend hStep
  | _ =>
    obtain ⟨request, hGet, hTurn⟩ := Option.bind_eq_some_iff.mp hStep
    exact hSound.turn rfl hGet hTurn hFits hTimely

end

theorem Sound.owned [DecidableEq Digest] {sha256 : Text → Digest} {label : Label}
    {after : State Digest} (hLabel : label = .complete id ∨ label = .release id)
    (hStep : Steps (Idempotency.step limits sha256) state label after)
    (hChanged : after.entries.get? key ≠ state.entries.get? key) :
    ∃ entry, state.entries.get? key = some entry ∧ entry.owner = id := by
  -- Both change the entry of their request's key only, which the request still holds.
  have hOwn : ∀ request reserved, state.requests.get? id = some request →
      request.phase.reserved = some reserved → key = request.key →
      ∃ entry, state.entries.get? key = some entry ∧ entry.owner = id := by
    intro request reserved hGet hReserved hKey
    obtain ⟨-, entry, hEntry, hHolds⟩ := hSound.held id request reserved hGet hReserved
    exact ⟨entry, by rw [hKey]; exact hEntry, hHolds.owner⟩
  unfold Steps at hStep
  rcases hLabel with rfl | rfl
  all_goals
    obtain ⟨request, hGet, hTurn⟩ := Option.bind_eq_some_iff.mp hStep
    cases hPhase : request.phase <;> simp [State.turn, hPhase] at hTurn
    subst hTurn
    refine hOwn request _ hGet (by rw [hPhase]; rfl) ?_
    by_contra hKey
  · exact hChanged (get?_complete_of_ne hKey _ _)
  · exact hChanged (get?_release_of_ne hKey)

end

end Steps

/-! ## The result -/

/-- What the reservations are for: no two handlers run on one key, two executions on one key
succeed a ttl apart, and `complete` and `release` change only what their caller reserved. -/
structure RunsOnce [DecidableEq Digest] (limits : Limits) (sha256 : Text → Digest)
    (state : State Digest) : Prop where
  alone : ∀ first second one other reserved since,
    state.requests.get? first = some one → state.requests.get? second = some other →
    one.phase = .running reserved → other.phase = .running since → one.key = other.key →
    first = second
  apart : state.successes.Pairwise fun later earlier =>
    later.key = earlier.key → earlier.at_ + limits.ttl ≤ later.at_
  owned : ∀ id label after, label = .complete id ∨ label = .release id →
    Steps (step limits sha256) state label after → ∀ key,
    after.entries.get? key ≠ state.entries.get? key →
    ∃ entry, state.entries.get? key = some entry ∧ entry.owner = id

/-- As long as every handler ends before its reservation, in a cache with room, a key's handler
runs once. -/
theorem runs_once [DecidableEq Digest] {limits : Limits} {sha256 : Text → Digest} {clock : ℚ}
    {labels : List Label} {state : State Digest}
    (hRun : Run (Guarded (Steps (step limits sha256)) fun state label =>
      Fits limits state label ∧ Timely limits state label) (State.initial clock) labels state) :
    RunsOnce limits sha256 state := by
  have hSound : Sound limits state := by
    refine hRun.invariant (Sound limits) ?_ (Sound.initial clock)
    rintro start label stop hStart ⟨hStep, hFits, hTimely⟩
    exact hStart.step hStep hFits hTimely
  refine ⟨?_, hSound.apart, ?_⟩
  · intro first second one other reserved since hFirst hSecond hOne hOther hKey
    have hReserved : one.phase.reserved = some reserved := by
      rw [hOne]
      rfl
    have hSince : other.phase.reserved = some since := by
      rw [hOther]
      rfl
    exact hSound.unique hFirst hReserved hSecond hSince hKey
  · intro id label after hLabel hStep key hChanged
    exact hSound.owned hLabel hStep hChanged

/-- A cache that keeps two keys for ten seconds. -/
def smallLimits : Limits := ⟨10, 2, by norm_num, by decide⟩

/-- A request of user 1 with the key `shift-1234`. -/
def shiftRequest (id : ℕ) : Label :=
  .send id 1 "frames/offset".toList (some "shift-1234".toList) [("by".toList, "3".toList)]

def shiftKey : CacheKey := (1, "frames/offset".toList, "shift-1234".toList)

def okResponse : StoredResponse := ⟨200, none, []⟩

/-- A handler that ends in time: a duplicate is refused while it runs and replayed afterwards. -/
def promptRun : List Label :=
  [shiftRequest 1, .reserve 1, .tick 1, shiftRequest 2, .reserve 2, .answer 1 okResponse,
    .stamp 1, .complete 1, .tick 2, shiftRequest 3, .reserve 3, .tick 11, shiftRequest 4,
    .reserve 4, .tick 12, .answer 4 okResponse]

theorem runs_once_prompt : ∃ state, Run (Guarded (Steps (step smallLimits id)) fun state label =>
        Fits smallLimits state label ∧ Timely smallLimits state label)
        (State.initial 0) promptRun state ∧
      state.successes = [⟨4, shiftKey, 12⟩, ⟨1, shiftKey, 1⟩] ∧
      RunsOnce smallLimits id state := by
  refine Run.exists_of_checked
    (P := fun state => state.successes = [⟨4, shiftKey, 12⟩, ⟨1, shiftKey, 1⟩])
    (by decide +kernel) ?_
  exact fun state hRun hSuccesses => ⟨hSuccesses, runs_once hRun⟩

/-- The key and the phase of a request. -/
def State.stage (state : State Digest) (id : ℕ) : Option (CacheKey × Phase) :=
  (state.requests.get? id).map fun request => (request.key, request.phase)

/-- A handler that takes longer than its reservation. -/
def overdueRun : List Label :=
  [shiftRequest 1, .reserve 1, .tick 10, shiftRequest 2, .reserve 2]

/-- The next request with the key starts the handler again beside the one that is overdue, and
both succeed. -/
theorem outlived_reservation :
    ∃ early late, Run (Guarded (Steps (step smallLimits id)) (Fits smallLimits)) (State.initial 0)
        overdueRun early ∧
      Run (Guarded (Steps (step smallLimits id)) (Fits smallLimits)) (State.initial 0)
        (overdueRun ++ [.answer 1 okResponse, .answer 2 okResponse]) late ∧
      early.stage 1 = some (shiftKey, .running 0) ∧ early.stage 2 = some (shiftKey, .running 10) ∧
      late.successes = [⟨2, shiftKey, 10⟩, ⟨1, shiftKey, 10⟩] ∧
      ¬RunsOnce smallLimits id early ∧ ¬RunsOnce smallLimits id late := by
  have hEarly : ((exec (checked (step smallLimits id) (Fits smallLimits)) (State.initial 0)
      overdueRun).map fun state => decide (state.stage 1 = some (shiftKey, .running 0) ∧
        state.stage 2 = some (shiftKey, .running 10))) = some true := by decide +kernel
  have hLate : ∃ late ∈ exec (checked (step smallLimits id) (Fits smallLimits)) (State.initial 0)
      (overdueRun ++ [.answer 1 okResponse, .answer 2 okResponse]),
      late.successes = [⟨2, shiftKey, 10⟩, ⟨1, shiftKey, 10⟩] := by decide +kernel
  obtain ⟨early, hExec, hBoth⟩ := Option.map_eq_some_iff.mp hEarly
  obtain ⟨hFirst, hSecond⟩ := of_decide_eq_true hBoth
  obtain ⟨late, hExecLate, hSuccesses⟩ := hLate
  obtain ⟨one, hOne, hOneIs⟩ := Option.map_eq_some_iff.mp hFirst
  obtain ⟨two, hTwo, hTwoIs⟩ := Option.map_eq_some_iff.mp hSecond
  obtain ⟨hOneKey, hOnePhase⟩ := Prod.mk.inj hOneIs
  obtain ⟨hTwoKey, hTwoPhase⟩ := Prod.mk.inj hTwoIs
  refine ⟨early, late, Run.of_exec_checked hExec, Run.of_exec_checked hExecLate, hFirst, hSecond,
    hSuccesses, ?_, ?_⟩
  · intro hOnce
    have hSame := hOnce.alone 1 2 one two 0 10 hOne hTwo hOnePhase hTwoPhase
      (hOneKey.trans hTwoKey.symm)
    cases hSame
  · intro hOnce
    have hApart := hOnce.apart
    rw [hSuccesses] at hApart
    have hTtl := (List.pairwise_cons.mp hApart).1 _ List.mem_cons_self rfl
    exact absurd hTtl (by decide +kernel)

end TimelapseManager.Web.Idempotency
