import TimelapseManager.Lib.Runs

/-!
# Requests of a page under one key

`tlmRequest` keeps the slot of the newest request of a key in `held`.  A request is aborted by its
timer or by a call that supersedes it; what the abort does to the promise depends on whether the
headers of the response have come.  The handlers of a promise that has settled run in a step of
their own, so that anything may come between.
-/

namespace TimelapseManager.Web.Net

open Runs
open Function (update)

/-- Where the promise of a request is: the fetch is pending or has failed; the headers have come
and the body is awaited or over, well or not; the handlers have run. -/
inductive Phase
  | fetching
  | fetchFailed
  | reading (ok : Bool)
  | read (ok : Bool)
  | resolved
  | rejected
  deriving DecidableEq

structure Request where
  controller : Bool
  timer : Bool
  superseded : Bool := false
  timedOut : Bool := false
  phase : Phase := .fetching
  deriving DecidableEq

/-- `controller.abort()`, and every other failure of the connection: a pending fetch is rejected,
and so is a pending body, which `readBody` turns into an empty one. -/
def Request.abort (request : Request) : Request :=
  match request.phase with
  | .fetching => { request with phase := .fetchFailed }
  | .reading ok => { request with phase := .read ok }
  | _ => request

def Request.aborted (request : Request) : Bool :=
  request.timedOut || request.superseded

/-- The requests in the order of their calls, and the slot held under the key. -/
structure Page where
  count : ℕ := 0
  request : ℕ → Request := fun _ => ⟨false, false, false, false, .fetching⟩
  held : Option ℕ := none

namespace Page

def set (page : Page) (id : ℕ) (request : Request) : Page :=
  { page with request := update page.request id request }

def start (page : Page) (controller timed : Bool) : Page where
  count := page.count + 1
  request := update page.request page.count { controller, timer := controller && timed }
  held := some page.count

def tlmRequest (page : Page) (supersede controller timed : Bool) : Page :=
  match page.held with
  | none => page.start controller timed
  | some prior =>
    let request := page.request prior
    if !supersede || !request.controller then page
    else (page.set prior { request with superseded := true }.abort).start controller timed

def release (page : Page) (id : ℕ) (phase : Phase) : Page :=
  { page.set id { page.request id with timer := false, phase } with
    held := if page.held = some id then none else page.held }

/-- A call; the headers of a response; the end of its body; a failure of the connection; the timer
of a request; and its handlers. -/
inductive Label
  | call (supersede controller timed : Bool)
  | headers (id : ℕ) (ok : Bool)
  | body (id : ℕ)
  | network (id : ℕ)
  | timeout (id : ℕ)
  | settle (id : ℕ)

def step (page : Page) : Label → Option Page
  | .call supersede controller timed => some (page.tlmRequest supersede controller timed)
  | .headers id ok =>
    if id < page.count ∧ (page.request id).phase = .fetching then
      some (page.set id { page.request id with phase := .reading ok })
    else none
  | .body id =>
    match (page.request id).phase with
    | .reading ok => some (page.set id { page.request id with phase := .read ok })
    | _ => none
  | .network id => if id < page.count then some (page.set id (page.request id).abort) else none
  | .timeout id =>
    if (page.request id).timer then
      some (page.set id { page.request id with timer := false, timedOut := true }.abort)
    else none
  | .settle id =>
    match (page.request id).phase with
    | .fetchFailed => some (page.release id .rejected)
    | .read ok => some (page.release id (if ok then .resolved else .rejected))
    | _ => none

/-! ## What every run keeps -/

/-- What is decided about a request: nothing while its headers are awaited, then how it ends. -/
def fate : Phase → Option Bool
  | .fetching => none
  | .reading ok => some ok
  | .read ok => some ok
  | .fetchFailed => some false
  | .rejected => some false
  | .resolved => some true

def settled (phase : Phase) : Bool :=
  phase = .resolved || phase = .rejected

/-- The slot of the newest request is held until its handlers have run, and no other is. -/
def HeldByNewest (page : Page) : Prop :=
  ∀ id, page.held = some id ↔ id + 1 = page.count ∧ settled (page.request id).phase = false

/-- What a step does to a request: what is decided stays so, and an abort decides against one whose
headers are awaited. -/
structure Follows (before after : Request) : Prop where
  decided : ∀ ends, fate before.phase = some ends → fate after.phase = some ends
  aborted : before.aborted = false → after.aborted = true →
    fate after.phase = some ((fate before.phase).getD false)

section Requests

variable {before after : Request}

theorem Follows.refl (request : Request) : Follows request request where
  decided := fun _ hEnds => hEnds
  aborted := fun hNot hAborted => by
    rw [hNot] at hAborted
    cases hAborted

/-- The phase goes on without an abort. -/
theorem Follows.of_aborted_eq (hAborted : after.aborted = before.aborted)
    (hDecided : ∀ ends, fate before.phase = some ends → fate after.phase = some ends) :
    Follows before after where
  decided := hDecided
  aborted := fun hNot hAfter => by
    rw [hAborted, hNot] at hAfter
    cases hAfter

theorem fate_abort (request : Request) :
    fate request.abort.phase = some ((fate request.phase).getD false) ∧
      settled request.abort.phase = settled request.phase := by
  unfold Request.abort
  cases hPhase : request.phase with
  | fetching | reading ok => exact ⟨rfl, rfl⟩
  | fetchFailed | read ok | resolved | rejected =>
    dsimp only
    rw [hPhase]
    exact ⟨rfl, rfl⟩

/-- An abort, with whatever flags are set for it. -/
theorem Follows.abort (hPhase : after.phase = before.phase) : Follows before after.abort where
  decided := fun ends hEnds => by
    rw [(fate_abort after).1, hPhase, hEnds]
    rfl
  aborted := fun _ _ => by rw [(fate_abort after).1, hPhase]

end Requests

variable {page after : Page} {label : Label}

/-! ### The slot -/

section Slot

variable {id : ℕ} {request : Request} {phase : Phase}

theorem heldByNewest_start (page : Page) (controller timed : Bool) :
    HeldByNewest (page.start controller timed) := by
  intro other
  constructor
  · intro hHeld
    obtain rfl := Option.some.inj hHeld
    refine ⟨rfl, ?_⟩
    dsimp only [start]
    rw [Function.update_self]
    rfl
  · rintro ⟨hNewest, -⟩
    exact congrArg some (Nat.succ.inj hNewest).symm

theorem HeldByNewest.set (hHeld : HeldByNewest page)
    (hSettled : settled request.phase = settled (page.request id).phase) :
    HeldByNewest (page.set id request) := by
  intro other
  refine (hHeld other).trans (and_congr_right fun _ => ?_)
  dsimp only [Page.set]
  by_cases hOther : other = id
  · rw [hOther, Function.update_self, hSettled]
  · rw [Function.update_of_ne hOther]

/-- The handlers of a request give back its slot and no other. -/
theorem HeldByNewest.release (hHeld : HeldByNewest page) (hSettled : settled phase = true) :
    HeldByNewest (page.release id phase) := by
  intro other
  dsimp only [Page.release, Page.set]
  by_cases hOther : other = id
  · rw [hOther, Function.update_self, hSettled]
    split_ifs with hOwn
    · exact iff_of_false nofun (by simp)
    · exact iff_of_false hOwn (by simp)
  · rw [Function.update_of_ne hOther, ← hHeld other]
    split_ifs with hOwn
    · rw [hOwn]
      exact iff_of_false nofun fun hSame => hOther (Option.some.inj hSame).symm
    · exact Iff.rfl

end Slot

/-! ### Steps -/

/-- What a step keeps: the slot, and for every request what is decided about it. -/
structure Keeps (page after : Page) : Prop where
  held : HeldByNewest page → HeldByNewest after
  count : page.count ≤ after.count
  follows : ∀ id < page.count, Follows (page.request id) (after.request id)

section Keeps

variable {id : ℕ} {request : Request} {phase : Phase}

theorem follows_set (hFollows : Follows (page.request id) request) (other : ℕ) :
    Follows (page.request other) ((page.set id request).request other) := by
  dsimp only [Page.set]
  by_cases hOther : other = id
  · rw [hOther, Function.update_self]
    exact hFollows
  · rw [Function.update_of_ne hOther]
    exact .refl _

theorem keeps_set (hFollows : Follows (page.request id) request)
    (hSettled : settled request.phase = settled (page.request id).phase) :
    Keeps page (page.set id request) where
  held := fun hHeld => hHeld.set hSettled
  count := le_rfl
  follows := fun other _ => follows_set hFollows other

theorem keeps_abort (hPhase : request.phase = (page.request id).phase) :
    Keeps page (page.set id request.abort) := by
  refine keeps_set (.abort hPhase) ?_
  rw [(fate_abort request).2, hPhase]

theorem Keeps.start (hKeeps : Keeps page after) (controller timed : Bool) :
    Keeps page (after.start controller timed) where
  held := fun _ => heldByNewest_start after controller timed
  count := hKeeps.count.trans (Nat.le_succ _)
  follows := by
    intro other hOther
    dsimp only [Page.start]
    rw [Function.update_of_ne (hOther.trans_le hKeeps.count).ne]
    exact hKeeps.follows other hOther

theorem keeps_refl (page : Page) : Keeps page page :=
  ⟨fun hHeld => hHeld, le_rfl, fun _ _ => .refl _⟩

theorem keeps_tlmRequest (page : Page) (supersede controller timed : Bool) :
    Keeps page (page.tlmRequest supersede controller timed) := by
  unfold tlmRequest
  split
  next => exact (keeps_refl page).start controller timed
  next prior _ =>
    dsimp only
    split_ifs
    · exact keeps_refl page
    · -- The request before is aborted, and a new one takes its place.
      refine Keeps.start (keeps_abort ?_) controller timed
      rfl

theorem keeps_release (hSettled : settled phase = true)
    (hFate : fate phase = fate (page.request id).phase) : Keeps page (page.release id phase) where
  held := fun hHeld => hHeld.release hSettled
  count := le_rfl
  follows := by
    intro other _
    have hRequest : Follows (page.request id) { page.request id with timer := false, phase } :=
      .of_aborted_eq rfl fun _ hEnds => hFate.trans hEnds
    exact follows_set hRequest other

end Keeps

theorem steps_keep (hStep : Steps Page.step page label after) : Keeps page after := by
  cases label with simp only [Steps, Page.step] at hStep
  | call supersede controller timed =>
    cases hStep
    exact keeps_tlmRequest page supersede controller timed
  | headers id ok =>
    split at hStep
    next hWaiting =>
      cases hStep
      refine keeps_set (.of_aborted_eq rfl ?_) ?_
      · rw [hWaiting.2]
        exact nofun
      · rw [hWaiting.2]
        rfl
    next => cases hStep
  | body id =>
    split at hStep
    next ok hReading =>
      cases hStep
      refine keeps_set (.of_aborted_eq rfl ?_) ?_
      · rw [hReading]
        exact fun _ hEnds => hEnds
      · rw [hReading]
        rfl
    next => cases hStep
  | network id =>
    split at hStep
    next =>
      cases hStep
      exact keeps_abort rfl
    next => cases hStep
  | timeout id =>
    split at hStep
    next =>
      cases hStep
      exact keeps_abort rfl
    next => cases hStep
  | settle id =>
    split at hStep
    next hFailed =>
      cases hStep
      exact keeps_release rfl (by rw [hFailed]; rfl)
    next ok hRead =>
      cases hStep
      refine keeps_release ?_ ?_
      · cases ok <;> rfl
      · rw [hRead]
        cases ok <;> rfl
    next => cases hStep

theorem resolved_iff {phase : Phase} (hSettled : settled phase = true) :
    phase = .resolved ↔ fate phase = some true := by
  cases phase with
  | resolved => exact iff_of_true rfl rfl
  | rejected => exact iff_of_false nofun (by decide)
  | fetching | fetchFailed | reading ok | read ok => cases hSettled

/-- The key is held exactly until its newest request settles.  A request that is aborted and
settles is resolved exactly if the headers of a good response had come before the abort. -/
theorem aborted_request_settles {labels : List Label} (hRun : Run (Steps Page.step) {} labels page) :
    HeldByNewest page ∧
    ∀ id label after more last, id < page.count → Steps Page.step page label after →
      (page.request id).aborted = false → (after.request id).aborted = true →
      Run (Steps Page.step) after more last → settled (last.request id).phase = true →
      ((last.request id).phase = .resolved ↔ fate (page.request id).phase = some true) := by
  constructor
  · exact hRun.invariant HeldByNewest (fun _ _ _ hHeld hStep => (steps_keep hStep).held hHeld)
      (by simp [HeldByNewest])
  · intro id label after more last hId hStep hBefore hAborted hMore hSettled
    have hKeeps := steps_keep hStep
    have hLast := hMore.invariant (fun next => id < next.count ∧
        fate (next.request id).phase = some ((fate (page.request id).phase).getD false))
      (fun _ _ _ hInv hStep =>
        ⟨hInv.1.trans_le (steps_keep hStep).count,
          ((steps_keep hStep).follows id hInv.1).decided _ hInv.2⟩)
      ⟨hId.trans_le hKeeps.count, (hKeeps.follows id hId).aborted hBefore hAborted⟩
    rw [resolved_iff hSettled, hLast.2, Option.some.injEq]
    cases fate (page.request id).phase with
    | none => exact iff_of_false nofun nofun
    | some ends => exact Option.some.injEq ends true ▸ Iff.rfl

/-- The timer aborts a request that waits for its headers. -/
theorem aborted_request_settles_timeout :
    ∃ last : Page, Run (Steps Page.step) {} [.call false true true, .timeout 0, .settle 0] last ∧
      (last.request 0).phase ≠ .resolved := by
  refine ⟨_, .cons rfl (.cons rfl (.cons rfl (.nil _))), ?_⟩
  have hCall : Run (Steps Page.step) {} [.call false true true] _ := .cons rfl (.nil _)
  have hSettle := (aborted_request_settles hCall).2 0 (.timeout 0) _ [.settle 0] _ (by decide) rfl
    (by decide) (by decide) (.cons rfl (.nil _)) (by decide)
  exact fun hResolved => absurd (hSettle.mp hResolved) (by decide)

/-- The timer aborts a request while its body is read: the promise is resolved, with no value. -/
theorem timeout_in_body_resolves :
    ∃ last : Page,
      Run (Steps Page.step) {} [.call false true true, .headers 0 true, .timeout 0, .settle 0] last ∧
        (last.request 0).timedOut = true ∧ (last.request 0).phase = .resolved :=
  ⟨_, .cons rfl (.cons rfl (.cons rfl (.cons rfl (.nil _)))), rfl, rfl⟩

end Page
end TimelapseManager.Web.Net
