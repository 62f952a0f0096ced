import Mathlib

/-!
# The request body limit

`BodyLimitMiddleware` wraps the `receive` and `send` callables it hands to the application.  The
application is the list of its calls of the two, in whatever order it makes them, and how it ends;
`receive` answers with whatever the server delivers.
-/

namespace TimelapseManager.Web.BodyLimit

/-- What `receive` hands out for an http request. -/
inductive Received
  | request (body : List UInt8) (moreBody : Bool)
  | disconnect

def Received.size : Received → ℕ
  | .request body _ => body.length
  | .disconnect => 0

/-- What an application sends.  An `extension` message is of none of the two response types. -/
inductive Message
  | start (status : ℕ) (headers : List (String × String))
  | body (bytes : List UInt8)
  | extension (type : String)

def Message.isStart : Message → Bool
  | .start _ _ => true
  | _ => false

/-- The three variables of a call, and what the application and the client have got. -/
structure Passage where
  received : ℕ := 0
  overflowed : Bool := false
  responseStarted : Bool := false
  delivered : List Received := []
  sent : List Message := []

def wrappedReceive (maxBytes : ℕ) (state : Passage) : Received → Passage
  | .disconnect => { state with delivered := state.delivered ++ [.disconnect] }
  | .request body moreBody =>
    let received := state.received + body.length
    if received > maxBytes then
      -- The handler's body read unwinds; the answer is sent at the end of the call.
      { state with received, overflowed := true, delivered := state.delivered ++ [.disconnect] }
    else { state with received, delivered := state.delivered ++ [.request body moreBody] }

def wrappedSend (state : Passage) (message : Message) : Passage :=
  if state.overflowed then state
  else { state with
    responseStarted := state.responseStarted || message.isStart
    sent := state.sent ++ [message] }

inductive Event
  | receive (message : Received)
  | send (message : Message)

def handle (maxBytes : ℕ) (state : Passage) : Event → Passage
  | .receive message => wrappedReceive maxBytes state message
  | .send message => wrappedSend state message

/-- The messages of `_send_too_large`. -/
def tooLarge : List Message :=
  let body := "Request body exceeds the configured size limit.
".toUTF8.toList
  [.start 413 [("content-type", "text/plain; charset=utf-8"),
    ("content-length", toString body.length), ("connection", "close")], .body body]

/-- The state after the application's calls. -/
def served (maxBytes : ℕ) (events : List Event) : Passage :=
  events.foldl (handle maxBytes) {}

/-- `__call__` for an application that does `events` and then returns, or raises.  The flag says
whether the exception leaves the call. -/
def call (maxBytes : ℕ) (declared : Option ℕ) (events : List Event) (raises : Bool) :
    Passage × Bool :=
  if declared.any (· > maxBytes) then ({ sent := tooLarge }, false)
  else
    let state := served maxBytes events
    if raises && !state.overflowed then (state, true)
    else if state.overflowed && !state.responseStarted then
      ({ state with sent := state.sent ++ tooLarge }, false)
    else (state, false)

/-! ## What passes -/

def sends (events : List Event) : List Message :=
  events.filterMap fun
    | .send message => some message
    | .receive _ => none

def bodyBytes (messages : List Received) : ℕ :=
  (messages.map Received.size).sum

/-- The body bytes `receive` has answered with. -/
def bytesRead (events : List Event) : ℕ :=
  bodyBytes (events.filterMap fun
    | .receive message => some message
    | .send _ => none)

variable {maxBytes : ℕ} {events : List Event} {state : Passage}

/-- The state in which the calls `events` leave the middleware. -/
structure Passed (maxBytes : ℕ) (events : List Event) (state : Passage) : Prop where
  received : state.received = bytesRead events
  overflowed : state.overflowed = true ↔ maxBytes < bytesRead events
  delivered : bodyBytes state.delivered ≤ min maxBytes state.received
  started : state.responseStarted = false ↔ state.sent.countP Message.isStart = 0
  sent : state.overflowed = false → state.sent = sends events
  starts : state.sent.countP Message.isStart ≤ (sends events).countP Message.isStart

@[simp] theorem bodyBytes_concat (messages : List Received) (message : Received) :
    bodyBytes (messages ++ [message]) = bodyBytes messages + message.size := by
  simp [bodyBytes]

@[simp] theorem bytesRead_append (events more : List Event) :
    bytesRead (events ++ more) = bytesRead events + bytesRead more := by
  simp [bytesRead, bodyBytes]

@[simp] theorem bytesRead_receive (message : Received) (events : List Event) :
    bytesRead (.receive message :: events) = message.size + bytesRead events := rfl

@[simp] theorem bytesRead_send (message : Message) (events : List Event) :
    bytesRead (.send message :: events) = bytesRead events := rfl

@[simp] theorem bytesRead_nil : bytesRead [] = 0 := rfl

theorem sends_concat_send (events : List Event) (message : Message) :
    sends (events ++ [.send message]) = sends events ++ [message] :=
  List.filterMap_append

theorem sends_concat_receive (events : List Event) (message : Received) :
    sends (events ++ [.receive message]) = sends events :=
  List.filterMap_append.trans (List.append_nil _)

/-- A message is passed on, or dropped once the limit is exceeded. -/
theorem Passed.send (hPassed : Passed maxBytes events state) (message : Message) :
    Passed maxBytes (events ++ [.send message]) (wrappedSend state message) := by
  obtain ⟨hReceived, hOverflowed, hDelivered, hStarted, hSent, hStarts⟩ := hPassed
  have hCount : (sends (events ++ [.send message])).countP Message.isStart =
      (sends events).countP Message.isStart + [message].countP Message.isStart := by
    rw [sends_concat_send, List.countP_append]
  unfold wrappedSend
  split
  next hOver =>
    refine ⟨by simpa using hReceived, by simpa using hOverflowed, hDelivered, hStarted, ?_, ?_⟩
    · intro hNot
      rw [hOver] at hNot
      cases hNot
    · rw [hCount]
      exact Nat.le_add_right_of_le hStarts
  next =>
    refine ⟨by simpa using hReceived, by simpa using hOverflowed, hDelivered, ?_, ?_, ?_⟩
    · -- The response has started if it had before, or this message starts it.
      dsimp only
      rw [List.countP_append, Nat.add_eq_zero_iff, ← hStarted, Bool.or_eq_false_iff,
        List.countP_singleton]
      cases message.isStart <;> simp
    · intro hNot
      dsimp only
      rw [sends_concat_send, hSent hNot]
    · dsimp only
      rw [hCount, List.countP_append]
      exact Nat.add_le_add_right hStarts _

/-- A body message is counted, and handed on while the limit is kept. -/
theorem Passed.receive (hPassed : Passed maxBytes events state) (message : Received) :
    Passed maxBytes (events ++ [.receive message]) (wrappedReceive maxBytes state message) := by
  obtain ⟨hReceived, hOverflowed, hDelivered, hStarted, hSent, hStarts⟩ := hPassed
  have hSends := sends_concat_receive events message
  cases message with
  | disconnect =>
    have hRead : bytesRead (events ++ [.receive .disconnect]) = bytesRead events := by
      rw [bytesRead_append]
      rfl
    refine ⟨hRead ▸ hReceived, hRead ▸ hOverflowed, ?_, hStarted, hSends ▸ hSent, hSends ▸ hStarts⟩
    exact (bodyBytes_concat _ _).trans_le hDelivered
  | request body moreBody =>
    have hRead : bytesRead (events ++ [.receive (.request body moreBody)]) =
        state.received + body.length := by
      rw [bytesRead_append, hReceived]
      rfl
    unfold wrappedReceive
    dsimp only
    split
    next hExceeds =>
      refine ⟨hRead.symm, ?_, ?_, hStarted, nofun, ?_⟩
      · exact iff_of_true rfl (hRead ▸ hExceeds)
      · -- A disconnect is handed on instead.
        dsimp only
        rw [bodyBytes_concat, Received.size]
        omega
      · exact hSends ▸ hStarts
    next hWithin =>
      refine ⟨hRead.symm, ?_, ?_, hStarted, ?_, ?_⟩
      · dsimp only
        rw [hOverflowed, hRead, ← hReceived]
        omega
      · dsimp only
        rw [bodyBytes_concat, Received.size]
        omega
      · exact hSends ▸ hSent
      · exact hSends ▸ hStarts

theorem passed (maxBytes : ℕ) (events : List Event) :
    Passed maxBytes events (served maxBytes events) := by
  induction events using List.reverseRecOn with
  | nil => constructor <;> simp [served, bodyBytes, sends]
  | append_singleton events event ih =>
    rw [served, List.foldl_append]
    cases event with
    | send message => exact ih.send message
    | receive message => exact ih.receive message

theorem wrappedReceive_sent (message : Received) :
    (wrappedReceive maxBytes state message).sent = state.sent := by
  cases message with
  | disconnect => rfl
  | request body moreBody =>
    unfold wrappedReceive
    dsimp only
    split <;> rfl

/-- Once the limit is exceeded nothing the application sends reaches the client. -/
theorem sent_of_exceeded {message : Received} {before after : List Event}
    (hExceeds : maxBytes < bytesRead before + message.size) :
    (served maxBytes (before ++ .receive message :: after)).sent =
      (served maxBytes before).sent := by
  induction after using List.reverseRecOn with
  | nil =>
    rw [served, List.foldl_append]
    exact wrappedReceive_sent message
  | append_singleton after event ih =>
    have hOver : (served maxBytes (before ++ .receive message :: after)).overflowed = true := by
      rw [(passed _ _).overflowed, bytesRead_append, bytesRead_receive]
      omega
    rw [← ih, ← List.cons_append, ← List.append_assoc, served, List.foldl_append]
    cases event with
    | send message => exact congrArg Passage.sent (if_pos hOver)
    | receive message => exact wrappedReceive_sent message

theorem tooLarge_starts : tooLarge.countP Message.isStart = 1 := rfl

/-- The application gets at most the limit and the client one response.  If the limit is exceeded
before a response is started, by the declared length or by what `receive` answers, the client gets
the 413 after what the application had sent before: nothing, if it opens its response with the
start message. -/
theorem call_within_limit (maxBytes : ℕ) (declared : Option ℕ) (events : List Event)
    (raises : Bool) (hOne : (sends events).countP Message.isStart ≤ 1) :
    let passage := (call maxBytes declared events raises).1
    let refused := declared.any (· > maxBytes)
    bodyBytes passage.delivered ≤ maxBytes ∧ passage.sent.countP Message.isStart ≤ 1 ∧
      (refused = true → passage.sent = tooLarge) ∧
      (refused = false → ∀ before message after, events = before ++ .receive message :: after →
        bytesRead before ≤ maxBytes → maxBytes < bytesRead before + message.size →
        (sends before).countP Message.isStart = 0 → passage.sent = sends before ++ tooLarge) := by
  intro passage refused
  cases hRefused : refused with
  | true =>
    have hCall : passage = { sent := tooLarge } := by
      simp only [passage, call, refused] at *
      rw [if_pos hRefused]
    rw [hCall]
    exact ⟨Nat.zero_le _, Nat.le_of_eq tooLarge_starts, fun _ => rfl, nofun⟩
  | false =>
    have hEnd : passage.delivered = (served maxBytes events).delivered ∧
        passage.sent = (served maxBytes events).sent ++
          if (served maxBytes events).overflowed && !(served maxBytes events).responseStarted
          then tooLarge else [] := by
      simp only [passage, call]
      rw [if_neg (by rw [← Bool.not_eq_true] at hRefused; exact hRefused)]
      -- An exception leaves the call only where there is no overflow.
      cases raises <;> cases (served maxBytes events).overflowed <;>
        cases (served maxBytes events).responseStarted <;> simp
    obtain ⟨hReceived, hOverflowed, hDelivered, hStarted, hSent, hStarts⟩ := passed maxBytes events
    rw [hEnd.1, hEnd.2]
    refine ⟨by omega, ?_, nofun, ?_⟩
    · -- The answer is added only to messages without a start.
      rw [List.countP_append]
      split
      next hAnswer =>
        rw [Bool.and_eq_true, Bool.not_eq_true'] at hAnswer
        rw [hStarted.mp hAnswer.2, tooLarge_starts]
      next => simpa using Nat.le_trans hStarts hOne
    · rintro _ before message after rfl hBefore hExceeds hNoStart
      have hFirst : (served maxBytes before).overflowed = false := by
        rw [← Bool.not_eq_true, (passed maxBytes before).overflowed]
        omega
      rw [sent_of_exceeded hExceeds, (passed maxBytes before).sent hFirst] at hStarted ⊢
      have hOver : maxBytes < bytesRead (before ++ .receive message :: after) := by
        rw [bytesRead_append, bytesRead_receive]
        omega
      rw [hOverflowed.mpr hOver, hStarted.mpr hNoStart]
      rfl

/-- The second body message exceeds the limit; the application answers with an error and raises. -/
theorem call_within_limit_chunked :
    let events : List Event := [.receive (.request [1, 2, 3] true), .receive (.request [4, 5] true),
      .send (.start 500 [])]
    (sends events).countP Message.isStart ≤ 1 ∧ (call 4 none events true).1.sent = tooLarge :=
  ⟨by decide, (call_within_limit 4 none _ true (by decide)).2.2.2 rfl
    [.receive (.request [1, 2, 3] true)] (.request [4, 5] true) _ rfl (by decide) (by decide) rfl⟩

/-- A message the application sends before its response start reaches the client, and the 413
follows it. -/
theorem early_message_reaches_client :
    let events : List Event := [.send (.extension "http.response.debug"),
      .receive (.request [1] false)]
    (sends events).countP Message.isStart = 0 ∧
      (call 0 none events false).1.sent = .extension "http.response.debug" :: tooLarge :=
  ⟨rfl, rfl⟩

end TimelapseManager.Web.BodyLimit
