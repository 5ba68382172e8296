import XChainSdk.Js.Stringify
import XChainSdk.WebSocket.CatchUp

/-!
# The subscriptions of a client

Callers share subscriptions: those with the same channels and parameters are one tracked entry with
a count, and only the last holder unsubscribes.  A reconnect replays the tracked entries.  What goes
out waits in a queue, and a request that the server drops is sent again after a delay.

* `SubClient` : the tracked entries, the catch-up, and every other place that a subscription waits
  in.
* `subscribe`, `unsubscribe`, `resubscribe` : the calls, and the replay.
* `onMessage` : the answers, with the refusals that are retried.
* `subStep` : one event.
-/

namespace XChainSdk

open Js

/-- `JSON.stringify([channels, params || {}])`; a value without a JSON text throws. -/
def subscriptionKey (channels params : Js) : Option String :=
  (Js.arr [channels, params.or (.obj [])]).jsonText

/-- The key of a subscription. -/
def WsSub.key (sub : WsSub) : String := (subscriptionKey sub.channels sub.params).getD ""

/-- A tracked subscription.  `array` is the identity of the channel array, a caller's object. -/
structure TrackedSub where
  key : String
  array : ℕ
  sub : WsSub
  refs : ℕ

/-- A subscribe frame.  `sub`, `root` and `first` are its history: what it subscribes to, the call or
the reconnect that it comes of, and whether it is the first frame of that. -/
structure SubscribeFrame where
  id : String
  channels : Js
  params : Js
  sub : WsSub
  root : ℕ
  first : Bool

/-- A frame that goes out. -/
inductive WsFrame where
  | subscribe (frame : SubscribeFrame)
  | unsubscribe (channels params : Js)
  | other

/-- The key that a frame is about. -/
def WsFrame.key? : WsFrame → Option String
  | subscribe frame => some frame.sub.key
  | unsubscribe channels params => some (WsSub.key ⟨channels, params⟩)
  | other => none

/-- A request that awaits its answer: a subscribe, or a list of the subscriptions. -/
structure PendingRequest where
  id : String
  subscribe? : Option SubscribeFrame
  retries : ℕ

/-- The frame of a request that is sent again. -/
def PendingRequest.frame (p : PendingRequest) : WsFrame :=
  match p.subscribe? with
  | some frame => .subscribe { frame with first := false }
  | none => .other

/-- A plain resubscribe, sent for the `attempt`-th time. -/
structure Resubscribe where
  array : ℕ
  channels : Js
  params : Js
  attempt : ℕ
  sub : WsSub
  root : ℕ

/-- A frame that went out, whether its key was held then, and the last reconnect, if it was the one
of that connection. -/
structure SentFrame where
  frame : WsFrame
  held : Bool
  reconnect : Option ℕ

/-- The last reconnect, the keys held when it replayed them, and whether its connection is still
there. -/
structure Replay where
  root : ℕ
  held : String → Bool
  live : Bool

/-- The subscriptions of a client.  `reconnects` counts the attempts of the client that wait for
their delay or for their socket.  `holders`, `started`, `replay`, `connected` and `wire` are its history: who holds a key,
the number of the next call or reconnect, the last reconnect, whether there was a connection before,
and what went out. -/
structure SubClient where
  isOpen : Bool
  catchUp : CatchUpClient
  entries : List TrackedSub
  pending : List PendingRequest
  pendingSubscribes : List (String × Resubscribe)
  resubTimers : List Resubscribe
  retryTimers : List String
  outQueue : List WsFrame
  reconnects : ℕ
  holders : String → ℕ
  started : ℕ
  replay : Replay
  connected : Bool
  wire : List SentFrame

/-- A client that was not connected yet. -/
def SubClient.new : SubClient where
  isOpen := false
  catchUp := .new
  entries := []
  pending := []
  pendingSubscribes := []
  resubTimers := []
  retryTimers := []
  outQueue := []
  reconnects := 0
  holders _ := 0
  started := 1
  replay := ⟨0, fun _ => false, false⟩
  connected := false
  wire := []

namespace TrackedSub

/-- `_subscriptions.find(sub => sub.key === key)`. -/
def find (key : String) (entries : List TrackedSub) : Option TrackedSub :=
  entries.find? fun e => e.key == key

/-- One more holder of the first entry with the key. -/
def join (key : String) : List TrackedSub → List TrackedSub
  | [] => []
  | e :: es => if e.key = key then { e with refs := e.refs + 1 } :: es else e :: join key es

/-- One holder less of the first entry with the key, which goes with its last one. -/
def release (key : String) : List TrackedSub → List TrackedSub
  | [] => []
  | e :: es =>
    if e.key = key then
      if 0 < e.refs - 1 then { e with refs := e.refs - 1 } :: es else es
    else e :: release key es

end TrackedSub

namespace SubClient

/-! ### What goes out -/

/-- Frames are queued as long as the socket is open. -/
def send (s : SubClient) (frames : List WsFrame) : SubClient :=
  if s.isOpen then { s with outQueue := s.outQueue ++ frames } else s

/-- Does someone hold the key? -/
def holds (s : SubClient) (key : String) : Bool := decide (0 < s.holders key)

/-- A frame that goes out now. -/
def note (s : SubClient) (frame : WsFrame) : SentFrame :=
  ⟨frame, frame.key?.any s.holds, if s.replay.live then some s.replay.root else none⟩

/-- `drainOut`: queued frames go out, as many as the rate allows; those of a socket that is not open
are dropped. -/
def drainOut (s : SubClient) (n : ℕ) : SubClient :=
  if s.isOpen then
    { s with wire := s.wire ++ (s.outQueue.take n).map s.note, outQueue := s.outQueue.drop n }
  else { s with outQueue := [] }

/-- `resetOut`. -/
def resetOut (s : SubClient) : SubClient := { s with outQueue := [], pendingSubscribes := [] }

/-- A reconnect: its number, and the keys that are held. -/
def beginReplay (s : SubClient) : SubClient :=
  { s with started := s.started + 1, replay := ⟨s.started, s.holds, true⟩ }

/-- The connection of the last reconnect is gone. -/
def endReplay (s : SubClient) : SubClient := { s with replay := { s.replay with live := false } }

/-! ### The calls -/

/-- `subscribe`. -/
def subscribe (s : SubClient) (array : ℕ) (channels params : Js) : SubClient :=
  match subscriptionKey channels params with
  | none => s
  | some key =>
    let s := { s with holders := Function.update s.holders key (s.holders key + 1) }
    match TrackedSub.find key s.entries with
    | some _ => { s with entries := TrackedSub.join key s.entries }
    | none =>
      let id := "sub-" ++ toString s.catchUp.nextId
      let sub : WsSub := ⟨channels, params.or (.obj [])⟩
      let frame : SubscribeFrame := ⟨id, channels, params, sub, s.started, true⟩
      let s := { s with
        catchUp := { s.catchUp with nextId := s.catchUp.nextId + 1 }
        started := s.started + 1
        pending := ⟨id, some frame, 0⟩ :: s.pending }.send [.subscribe frame]
      { s with entries := s.entries ++ [⟨key, array, sub, 1⟩] }

/-- `unsubscribe`: only the last holder tells the server, or a caller of a subscription that is not
tracked. -/
def unsubscribe (s : SubClient) (channels params : Js) : SubClient :=
  match subscriptionKey channels params with
  | none => s
  | some key =>
    let left := { s with
      holders := Function.update s.holders key (s.holders key - 1)
      entries := TrackedSub.release key s.entries }
    match TrackedSub.find key s.entries with
    | some e => if 0 < e.refs - 1 then left else left.send [.unsubscribe channels params]
    | none => left.send [.unsubscribe channels params]

/-- `listSubscriptions`. -/
def listSubscriptions (s : SubClient) : SubClient :=
  { s with
    catchUp := { s.catchUp with nextId := s.catchUp.nextId + 1 }
    pending := ⟨"list-" ++ toString s.catchUp.nextId, none, 0⟩ :: s.pending }.send [.other]

/-! ### The replay of a reconnect -/

/-- `Object.assign({}, params)`, with more members. -/
def copyParams (params : Js) (more : List (String × Js)) : Js :=
  .obj (more ++ params.ownEntries.getD [])

/-- The frame of a plain resubscribe. -/
def resubscribeFrame (x : String × Resubscribe) : WsFrame :=
  .subscribe ⟨x.1, x.2.channels, x.2.params, x.2.sub, x.2.root, x.2.attempt == 0⟩

/-- `sendTrackedSubscribe` of resubscribes with their ids. -/
def sendTrackedSubscribe (s : SubClient) (resubs : List (String × Resubscribe)) : SubClient :=
  { s with pendingSubscribes := resubs.reverse ++ s.pendingSubscribes }.send
    (resubs.map resubscribeFrame)

/-- The frame of the catch-up request that awaits its answer. -/
def catchUpFrame (s : SubClient) (st : CatchUp) : WsFrame :=
  .subscribe ⟨st.current.id, st.current.sub.channels,
    copyParams st.current.sub.params [("since_action_index", st.current.since)],
    st.current.sub, s.replay.root, st.current.rounds == 0 && st.current.rateRetries == 0⟩

/-- The catch-up goes on, and what it sends is queued. -/
def withCatchUp (s : SubClient) (c : CatchUpClient) : SubClient :=
  let s' := { s with catchUp := c }
  if c.sent.length = s.catchUp.sent.length then s'
  else s'.send (c.catchUp.toList.map s.catchUpFrame)

/-- The entries that a reconnect sends without a catch-up. -/
def plainEntries (s : SubClient) : List TrackedSub :=
  s.entries.filter fun e => s.catchUp.resumeCursor.isNone || !needsCatchUp e.sub.channels

/-- The first resubscribe of an entry. -/
def resubscribeOf (root : ℕ) (e : TrackedSub) : Resubscribe :=
  ⟨e.array, e.sub.channels, copyParams e.sub.params [], 0, e.sub, root⟩

/-- `resubscribe`: the entries without a catch-up at once, and the others one at a time. -/
def resubscribe (s : SubClient) : SubClient :=
  let resubs := (s.plainEntries.zipIdx s.catchUp.nextId).map fun (e, n) =>
    ("resub-" ++ toString n, resubscribeOf s.replay.root e)
  (s.sendTrackedSubscribe resubs).withCatchUp
    { s.catchUp with subscriptions := s.entries.map TrackedSub.sub }.resubscribe

/-! ### Answers -/

/-- A refusal of a message over the rate. -/
def isRateLimited (msg : Js) : Bool :=
  decide ((msg.field "type").str? = some "error") &&
    decide (((msg.field "data").field "code").str? = some "RATE_LIMITED")

/-- The plain resubscribe that a frame answers. -/
def answeredSubscribe (s : SubClient) (msg : Js) : Option Resubscribe :=
  match msg.field "id" with
  | .undefined => none
  | id => s.pendingSubscribes.lookup id.toText

/-- Is the resubscribe sent again when the server drops it? -/
def retries (s : SubClient) (r : Resubscribe) : Bool :=
  decide (r.attempt < RATE_RETRIES) && s.entries.any fun e => e.array == r.array

/-- `answerTrackedSubscribe`. -/
def answerTrackedSubscribe (s : SubClient) (msg : Js) : SubClient :=
  match s.answeredSubscribe msg with
  | none => s
  | some r =>
    let id := (msg.field "id").toText
    let s := { s with pendingSubscribes := s.pendingSubscribes.filter fun x => x.1 != id }
    if isRateLimited msg && s.retries r then
      { s with resubTimers := s.resubTimers ++ [{ r with attempt := r.attempt + 1 }] }
    else s

/-- The request that a frame answers. -/
def answeredRequest (s : SubClient) (msg : Js) : Option PendingRequest :=
  if (msg.field "id").truthy then
    s.pending.find? fun p => p.id == (msg.field "id").toText
  else none

/-- The part of `answerRateLimited` about a request that awaits its answer, and its end when it is
not sent again. -/
def answerRequest (s : SubClient) (msg : Js) : SubClient :=
  match s.answeredRequest msg with
  | none => s
  | some p =>
    let others := s.pending.filter fun q => q.id != p.id
    if isRateLimited msg && decide (p.retries < RATE_RETRIES) then
      { s with
        pending := { p with retries := p.retries + 1 } :: others
        retryTimers := s.retryTimers ++ [p.id] }
    else { s with pending := others }

/-- `onMessage`. -/
def onMessage (s : SubClient) (msg : Js) : SubClient :=
  ((s.withCatchUp (s.catchUp.onMessage msg)).answerTrackedSubscribe msg).answerRequest msg

/-! ### Timers -/

/-- The delay of a plain resubscribe is over. -/
def fireResub (s : SubClient) (i : ℕ) : SubClient :=
  match s.resubTimers[i]? with
  | none => s
  | some r =>
    { s with
      resubTimers := s.resubTimers.eraseIdx i
      catchUp := { s.catchUp with nextId := s.catchUp.nextId + 1 } }.sendTrackedSubscribe
        [("resub-" ++ toString s.catchUp.nextId, r)]

/-- The delay of a request is over; one that was settled meanwhile is not sent. -/
def fireRetry (s : SubClient) (i : ℕ) : SubClient :=
  match s.retryTimers[i]? with
  | none => s
  | some id =>
    let s := { s with retryTimers := s.retryTimers.eraseIdx i }
    match s.pending.find? fun p => p.id == id with
    | some p => s.send [p.frame]
    | none => s

end SubClient

/-- One event of a client. -/
inductive SubOp where
  | subscribe (array : ℕ) (channels params : Js)
  | unsubscribe (channels params : Js)
  | listSubscriptions
  | ping
  | message (msg : Js)
  | catchUpTimer
  | resubTimer (i : ℕ)
  | retryTimer (i : ℕ)
  /-- a request was not answered in time -/
  | requestTimeout (id : String)
  | drain (n : ℕ)
  /-- a new socket opens -/
  | opened
  /-- the socket starts to close -/
  | closing
  /-- the socket, or an older one, is closed -/
  | closed (current : Bool)
  | disconnect
  /-- `connect` of a caller has opened a connection -/
  | connected
  /-- the client waits to reconnect -/
  | reconnect
  /-- an attempt of the client opened no connection -/
  | reconnectFailed
  /-- a reconnect succeeded -/
  | reconnected

open SubClient

/-- One event.  A caller's connection, after another one and with no attempt of the client waiting, is
a reconnect that replays nothing. -/
def subStep (s : SubClient) : SubOp → SubClient
  | .subscribe array channels params => s.subscribe array channels params
  | .unsubscribe channels params => s.unsubscribe channels params
  | .listSubscriptions => s.listSubscriptions
  | .ping => s.send [.other]
  | .message msg => s.onMessage msg
  | .catchUpTimer => s.withCatchUp s.catchUp.fireTimer
  | .resubTimer i => s.fireResub i
  | .retryTimer i => s.fireRetry i
  | .requestTimeout id => { s with pending := s.pending.filter fun p => p.id != id }
  | .drain n => s.drainOut n
  | .opened => { s.resetOut.endReplay with isOpen := true }
  | .closing => { s.endReplay with isOpen := false }
  | .closed current =>
    let s := { s with catchUp := s.catchUp.dropCatchUp }.resetOut
    if current then { s.endReplay with isOpen := false } else s
  | .disconnect =>
    { s.endReplay with isOpen := false, catchUp := s.catchUp.dropCatchUp, pending := [] }
  | .connected =>
    if s.connected && s.reconnects == 0 then s.beginReplay else { s with connected := true }
  | .reconnect => { s with reconnects := s.reconnects + 1 }
  | .reconnectFailed => { s with reconnects := s.reconnects - 1 }
  | .reconnected =>
    { s.beginReplay with reconnects := s.reconnects - 1, connected := true }.resubscribe

/-- A run of a new client. -/
def subRun (ops : List SubOp) : SubClient := ops.foldl subStep .new

end XChainSdk
