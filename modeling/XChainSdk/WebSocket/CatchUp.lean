import XChainSdk.Js.Value

/-!
# The catch-up of a reconnect

After a reconnect the tracked subscriptions that can carry actions are sent one at a time with the
index that the client has reached, each waiting for its `CATCH_UP_COMPLETE` or its refusal. While
they run, the indexes that frames name are noted, and applied when the last one ends.

* `CatchUpClient` : the cursor, the catch-up in progress, and what was received, sent and emitted.
* `trackCursor`, `answerCatchUp` : what one frame does.
* `resubscribe`, `dropCatchUp`, `fireTimer` : the start of a catch-up, its end by a close, and the
  timer of the pending request.
* `catchUpStep` : one event.
-/

namespace XChainSdk

/-- A subscription that is replayed on a reconnect. -/
structure WsSub where
  channels : Js
  params : Js

/-- What the client tells its caller about a catch-up. -/
inductive CatchUpEvent where
  | resyncRequired (code message channels since : Js) (forkBlockIndex firstInvalid : Js)
  | notReplayed (types channels since : Js)
  | staleReplay (channels since latest : Js)

/-- The request that waits for its answer. -/
structure PendingCatchUp where
  sub : WsSub
  rounds : ℕ
  id : String
  since : Js
  rateRetries : ℕ

/-- The timer of the pending request: its backstop, or the wait before it is sent again. -/
inductive CatchUpTimer where
  | backstop
  | retry (since : Js)

/-- How a subscription of a catch-up ended: with the frame that completed it, or the event that it
was given up with. -/
inductive CatchUpEnding where
  | completed (frame : Js)
  | resync (event : CatchUpEvent)

/-- A catch-up in progress.  `started`, `queued` and `ended` are its history: the frames received
before it, the subscriptions that it has to replay, and those that ended. -/
structure CatchUp where
  queue : List WsSub
  cursor : String
  current : PendingCatchUp
  maxSeen : Option String
  timer : CatchUpTimer
  started : ℕ
  queued : List WsSub
  ended : List (PendingCatchUp × CatchUpEnding)

/-- A catch-up that closed: what it had to replay, what ended, and the subscriptions that it was
dropped with, with the cursors at its start and its end. -/
structure ClosedCatchUp where
  queued : List WsSub
  ended : List (PendingCatchUp × CatchUpEnding)
  dropped : List WsSub
  cursor : String
  lastActionIndex : Option String

/-- A subscribe with `since_action_index`: the frames received before its catch-up, and before it. -/
structure SentCatchUp where
  since : Js
  started : ℕ
  received : ℕ

/-- The part of a client that catches up.  `received`, `sent`, `emitted` and `closed` are its
history. -/
structure CatchUpClient where
  lastActionIndex : Option String
  catchingUp : Bool
  catchUp : Option CatchUp
  nextId : ℕ
  subscriptions : List WsSub
  received : List Js
  sent : List SentCatchUp
  emitted : List CatchUpEvent
  closed : List ClosedCatchUp

/-- A client that was not connected yet. -/
def CatchUpClient.new : CatchUpClient := ⟨none, false, none, 1, [], [], [], [], []⟩

/-- Continuations of a truncated replay. -/
def MAX_ROUNDS : ℕ := 20

/-- How many times a request is sent again. -/
def RATE_RETRIES : ℕ := 5

/-- Can the channels carry `NEW_ACTION`? -/
def carriesActions (channels : Js) : Bool :=
  channels.elems.any fun c => decide (c.str? = some "actions") || decide (c.str? = some "address")

/-- Is a subscription to the channels sent with `since_action_index`? -/
def needsCatchUp (channels : Js) : Bool :=
  carriesActions channels || channels.elems.any fun c => decide (c.str? = some "blocks")

/-! ### Indexes -/

/-- `/^[0-9]+$/`. -/
def isIndex (s : String) : Bool := s != "" && s.toList.all Char.isDigit

/-- `BigInt(s)` of an index. -/
def indexValue (s : String) : ℕ := digitsValue s.toList

/-- The index that a value is. -/
def indexText (raw : Js) : Option String :=
  if raw.isNullish then none else if isIndex raw.toText then some raw.toText else none

/-- The index below a rollback, or the present one when that is lower already. -/
def belowIndex (current : Option String) (firstInvalid : Js) : Option String :=
  match current, indexText firstInvalid with
  | some c, some f =>
    if indexValue f = 0 then some c
    else if indexValue f - 1 < indexValue c then some (toString (indexValue f - 1)) else some c
  | c, _ => c

/-- The larger of two indexes. -/
def maxIndex (current : Option String) (raw : Js) : Option String :=
  match current, indexText raw with
  | none, some v => some v
  | some c, some v => if indexValue c < indexValue v then some v else some c
  | c, none => c

namespace CatchUpClient

/-- Moves the cursor up to an index. -/
def advanceCursor (s : CatchUpClient) (raw : Js) : CatchUpClient :=
  { s with lastActionIndex := maxIndex s.lastActionIndex raw }

/-- What a frame reports as the index of a delivered action. -/
def deliveredIndex (msg : Js) : Option Js :=
  match msg.field "type" with
  | .str "NEW_ACTION" => some ((msg.field "data").field "action_index")
  | .str "CATCH_UP_COMPLETE" => some ((msg.field "data").field "latest_action_index")
  | _ => none

/-- The cursor follows the frames; while a catch-up runs it takes note of them instead. -/
def trackCursor (s : CatchUpClient) (msg : Js) : CatchUpClient :=
  if (msg.field "data").truthy = false then s
  else
    match msg.field "type" with
    | .str "WELCOME" =>
      match s.lastActionIndex with
      | none => s.advanceCursor ((msg.field "data").field "latest_action_index")
      | some _ => s
    | .str "REORG" =>
      let firstInvalid := (msg.field "data").field "first_invalid_action_index"
      { s with
        lastActionIndex := belowIndex s.lastActionIndex firstInvalid
        catchUp := s.catchUp.map fun st =>
          { st with maxSeen := belowIndex st.maxSeen firstInvalid } }
    | _ =>
      match deliveredIndex msg, s.catchUp with
      | none, _ => s
      | some raw, some st => { s with catchUp := some { st with maxSeen := maxIndex st.maxSeen raw } }
      | some raw, none => s.advanceCursor raw

/-- Abandons a catch-up without applying what it saw. -/
def dropCatchUp (s : CatchUpClient) : CatchUpClient :=
  match s.catchUp with
  | none => s
  | some st => { s with
      catchUp := none
      closed := s.closed ++
        [⟨st.queued, st.ended, st.current.sub :: st.queue, st.cursor, s.lastActionIndex⟩] }

/-- Every queued replay has closed: the highest index seen is applied. -/
def finishCatchUp (s : CatchUpClient) (st : CatchUp) : CatchUpClient :=
  { s with
    catchUp := none
    catchingUp := false
    lastActionIndex := maxIndex s.lastActionIndex ((st.maxSeen.map Js.str).getD .null)
    closed := s.closed ++ [⟨st.queued, st.ended, [], st.cursor, s.lastActionIndex⟩] }

/-- Sends the current subscription with `since_action_index`, under a fresh id. -/
def sendCatchUp (s : CatchUpClient) (st : CatchUp) (since : Js) : CatchUpClient :=
  { s with
    nextId := s.nextId + 1
    catchUp := some { st with
      current := { st.current with id := "catchup-" ++ toString s.nextId, since }
      timer := .backstop }
    sent := s.sent ++ [⟨since, st.started, s.received.length⟩] }

/-- Sends the next queued subscription, or closes the catch-up when none remains. -/
def nextCatchUp (s : CatchUpClient) (st : CatchUp) : CatchUpClient :=
  match st.queue with
  | [] => s.finishCatchUp st
  | sub :: queue =>
    s.sendCatchUp { st with queue, current := ⟨sub, 0, "", .null, 0⟩ } (.str st.cursor)

/-- The current subscription ends. -/
def endCurrent (st : CatchUp) (ending : CatchUpEnding) : CatchUp :=
  { st with ended := st.ended ++ [(st.current, ending)] }

/-- The pending request was refused or went unanswered. -/
def refuseCatchUp (s : CatchUpClient) (st : CatchUp) (code message detail : Js) : CatchUpClient :=
  let event := .resyncRequired (code.or .null) (message.or .null) st.current.sub.channels
    st.current.since (detail.field "fork_block_index") (detail.field "first_invalid_action_index")
  { s with emitted := s.emitted ++ [event] }.nextCatchUp (endCurrent st (.resync event))

/-- Was a subscription for one frame spent by a replayed one? -/
def spentOnce (sub : WsSub) (data : Js) : Bool :=
  sub.params.truthy && (sub.params.field "once").truthy &&
    (JsNum.fin 0).lt (data.field "events_replayed").toNumber

/-- `x === true`. -/
def isTrue : Js → Bool
  | .bool b => b
  | _ => false

/-- What a completed replay could not carry, and how far a stale replica took it. -/
def completionEvents (st : CatchUp) (msg data : Js) : List CatchUpEvent :=
  (if (data.field "not_replayed").elems ≠ [] then
    [.notReplayed (data.field "not_replayed") st.current.sub.channels st.current.since] else []) ++
  if isTrue (msg.field "stale") then
    [.staleReplay st.current.sub.channels st.current.since
      (match data.field "latest_action_index" with
        | .undefined => .null
        | latest => latest)] else []

/-- An answer to the pending request: a refusal, a truncated round, or the end of the replay. -/
def answerCatchUp (s : CatchUpClient) (msg : Js) : CatchUpClient :=
  match s.catchUp, msg.field "id", msg.field "type" with
  | some st, .str id, .str "error" =>
    if id ≠ st.current.id then s
    else
      let err := msg.field "data"
      let retried := decide ((err.field "code").str? = some "RATE_LIMITED") ||
        decide ((err.field "code").str? = some "CATCH_UP_NOT_READY")
      if retried ∧ st.current.rateRetries < RATE_RETRIES then
        { s with catchUp := some { st with
            current := { st.current with rateRetries := st.current.rateRetries + 1 }
            timer := .retry st.current.since } }
      else s.refuseCatchUp st (err.field "code") (err.field "message") err
  | some st, .str id, .str "CATCH_UP_COMPLETE" =>
    if id ≠ st.current.id then s
    else
      let data := msg.field "data"
      if isTrue (data.field "truncated") ∧ spentOnce st.current.sub data = false then
        let st := { st with current := { st.current with rounds := st.current.rounds + 1 } }
        -- the server stopped at its row cap, and goes on from where it stopped
        if MAX_ROUNDS ≤ st.current.rounds then
          s.refuseCatchUp st (.str "CATCH_UP_ROUNDS")
            (.str "Catch-up did not reach the tip in 20 rounds") .undefined
        else s.sendCatchUp st (data.field "latest_action_index")
      else
        { s with emitted := s.emitted ++ completionEvents st msg data }.nextCatchUp
          (endCurrent st (.completed msg))
  | _, _, _ => s

/-- The frames that open or close a replay, as the client shows it. -/
def markCatchingUp (s : CatchUpClient) (msg : Js) : CatchUpClient :=
  let s := if (msg.field "type").str? = some "CATCH_UP_COMPLETE" then { s with catchingUp := false }
    else s
  if (msg.field "catch_up").truthy then { s with catchingUp := true } else s

/-- One frame. -/
def onMessage (s : CatchUpClient) (msg : Js) : CatchUpClient :=
  (({ s with received := s.received ++ [msg] }.trackCursor msg).markCatchingUp msg).answerCatchUp msg

/-- The timer of the pending request fires. -/
def fireTimer (s : CatchUpClient) : CatchUpClient :=
  match s.catchUp with
  | none => s
  | some st =>
    match st.timer with
    | .backstop => s.refuseCatchUp st (.str "CATCH_UP_TIMEOUT")
        (.str "No reply to the catch-up request") .undefined
    | .retry since => s.sendCatchUp st since

/-- The index to resume from; a chain that is still at index 0 has none. -/
def resumeCursor (s : CatchUpClient) : Option String :=
  match s.lastActionIndex with
  | some c => if 0 < indexValue c then some c else none
  | none => none

/-- Replays the tracked subscriptions after a reconnect: those without a catch-up are sent at once,
under ids of their own. -/
def resubscribe (s : CatchUpClient) : CatchUpClient :=
  let s := s.dropCatchUp
  match s.resumeCursor with
  | none => { s with nextId := s.nextId + s.subscriptions.length }
  | some cursor =>
    let queued := s.subscriptions.filter fun sub => needsCatchUp sub.channels
    let s := { s with nextId := s.nextId + (s.subscriptions.length - queued.length) }
    match queued with
    | [] => s
    | sub :: queue => s.sendCatchUp
        ⟨queue, cursor, ⟨sub, 0, "", .null, 0⟩, none, .backstop, s.received.length, queued, []⟩
        (.str cursor)

end CatchUpClient

/-- One event of a client that catches up. -/
inductive CatchUpOp where
  /-- a frame arrives -/
  | frame (msg : Js)
  /-- the timer of the pending request fires -/
  | timer
  /-- the socket closes, or the caller disconnects -/
  | close
  /-- a reconnect succeeded -/
  | reconnected
  /-- the caller changes its subscriptions, with requests of its own -/
  | track (subs : List WsSub) (requests : ℕ)

/-- The frame that an event brings. -/
def CatchUpOp.frame? : CatchUpOp → Option Js
  | frame msg => some msg
  | _ => none

/-- One event. -/
def catchUpStep (s : CatchUpClient) : CatchUpOp → CatchUpClient
  | .frame msg => s.onMessage msg
  | .timer => s.fireTimer
  | .close => s.dropCatchUp
  | .reconnected => s.resubscribe
  | .track subs requests => { s with subscriptions := subs, nextId := s.nextId + requests }

/-- A run of a new client. -/
def catchUpRun (ops : List CatchUpOp) : CatchUpClient := ops.foldl catchUpStep .new

end XChainSdk
