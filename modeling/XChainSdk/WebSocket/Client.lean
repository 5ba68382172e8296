import XChainSdk.WebSocket.CatchUp

/-!
# The sockets of a client

A client opens one socket after another; each has listeners of its own, which share the flags, the
outbound queue and the catch-up of the client. A socket that was welcomed and closes makes the client
reconnect after a delay.

* `WsClient` : the client, its sockets, its pending timers and the attempts that wait for a hook.
* `connect`, `disconnect`, `setBase`, `reconnect` : the methods that open and close sockets.
* `onOpen`, `onSocketMessage`, `onClose`, `onError` : the listeners of a socket.
* `clientStep` : one event.
-/

namespace XChainSdk

/-- The ready states of a socket. -/
inductive ReadyState where
  | connecting
  | opened
  | closing
  | closed
  deriving DecidableEq

/-- Who called `connect`. -/
inductive ConnectCall where
  | caller
  | setBase
  | reconnect
  deriving DecidableEq

/-- A socket, whether it was welcomed, and the call whose promise waits for that. -/
structure Socket where
  ready : ReadyState
  welcomed : Bool
  promise : Option ConnectCall

/-- A frame that waits in the outbound queue. -/
inductive OutFrame where
  | catchUp (x : SentCatchUp)
  | resubscribe (sub : WsSub)
  | ping
  | request (frame : Js)

/-- The options of a client. -/
structure WsConfig where
  maxReconnectAttempts : JsNum := .fin 10
  /-- a readiness hook is awaited before every socket -/
  readyHook : Bool := false

/-- A client.  `welcomed`, `failures` and `lost` are its history: whether a current socket was
welcomed since the caller disconnected, the attempts that failed since, and those that had failed
when `connection_lost` was emitted. -/
structure WsClient where
  catchUp : CatchUpClient
  sockets : ℕ → Socket
  opened : ℕ
  ws : Option ℕ
  connected : Bool
  intentionalClose : Bool
  reconnectAttempts : ℕ
  pinging : Bool
  outQueue : List OutFrame
  timers : ℕ
  hooks : List ConnectCall
  welcomed : Bool
  failures : ℕ
  lost : Option ℕ

/-- A client that was not connected yet. -/
def WsClient.new : WsClient where
  catchUp := .new
  sockets _ := ⟨.closed, false, none⟩
  opened := 0
  ws := none
  connected := false
  intentionalClose := false
  reconnectAttempts := 0
  pinging := false
  outQueue := []
  timers := 0
  hooks := []
  welcomed := false
  failures := 0
  lost := none

namespace WsClient

/-- The ready state of the current socket. -/
def ready (s : WsClient) : Option ReadyState := s.ws.map fun k => (s.sockets k).ready

/-- Is the current socket open? -/
def isOpen (s : WsClient) : Bool := decide (s.ready = some .opened)

/-- Is the current socket open or connecting? -/
def isBusy (s : WsClient) : Bool := s.isOpen || decide (s.ready = some .connecting)

/-- Changes a socket. -/
def setSocket (s : WsClient) (k : ℕ) (socket : Socket) : WsClient :=
  { s with sockets := Function.update s.sockets k socket }

/-- Frames are queued as long as the current socket is open. -/
def send (s : WsClient) (frames : List OutFrame) : WsClient :=
  if s.isOpen then { s with outQueue := s.outQueue ++ frames } else s

/-- The catch-up goes on, and what it sends is queued. -/
def withCatchUp (s : WsClient) (c : CatchUpClient) : WsClient :=
  { s with catchUp := c }.send ((c.sent.drop s.catchUp.sent.length).map .catchUp)

/-- Replays the subscriptions: those that need no catch-up first. -/
def resubscribe (s : WsClient) : WsClient :=
  let plain := s.catchUp.subscriptions.filter fun sub =>
    s.catchUp.resumeCursor.isNone || !needsCatchUp sub.channels
  (s.send (plain.map .resubscribe)).withCatchUp s.catchUp.resubscribe

/-- The promise of a call to `connect` is rejected. -/
def attemptFailed (s : WsClient) : WsClient := { s with failures := s.failures + 1 }

/-- `openWebSocket`; the constructor may throw. -/
def openWebSocket (s : WsClient) (a : ConnectCall) (constructs : Bool) : WsClient :=
  let s := { s with intentionalClose := false }
  if constructs then
    { s.setSocket s.opened ⟨.connecting, false, some a⟩ with
      ws := some s.opened, opened := s.opened + 1 }
  else s.attemptFailed

variable (cfg : WsConfig)

/-- `connect`; a reconnect that finds a socket goes on to resubscribe. -/
def connect (s : WsClient) (a : ConnectCall) (constructs : Bool) : WsClient :=
  if s.isBusy then if a = .reconnect then s.resubscribe else s
  else if cfg.readyHook then { s with hooks := s.hooks ++ [a] }
  else s.openWebSocket a constructs

/-- Closes a socket that is not closing. -/
def closeSocket (s : WsClient) (k : ℕ) : WsClient :=
  if (s.sockets k).ready = .closed then s
  else s.setSocket k { s.sockets k with ready := .closing }

/-- `disconnect`. -/
def disconnect (s : WsClient) : WsClient :=
  let s := { s with
    intentionalClose := true, pinging := false, catchUp := s.catchUp.dropCatchUp,
    connected := false }
  match s.ws with
  | some k => { s.closeSocket k with ws := none }
  | none => s

/-- `setBase` with an endpoint that differs from the present one. -/
def setBase (s : WsClient) (constructs : Bool) : WsClient :=
  if s.connected && s.isOpen then s.disconnect.connect cfg .setBase constructs else s

/-- `reconnect`: a timer, or the end of the attempts. -/
def reconnect (s : WsClient) : WsClient :=
  if s.intentionalClose then s
  else if cfg.maxReconnectAttempts.le (.fin s.reconnectAttempts) then
    { s with lost := some s.failures }
  else { s with reconnectAttempts := s.reconnectAttempts + 1, timers := s.timers + 1 }

/-- A reconnect timer fires. -/
def fireReconnect (s : WsClient) (constructs : Bool) : WsClient :=
  match s.timers with
  | 0 => s
  | n + 1 => { s with timers := n }.connect cfg .reconnect constructs

/-- The readiness hook of an attempt is done, or failed. -/
def hookDone (s : WsClient) (i : ℕ) (ok constructs : Bool) : WsClient :=
  match s.hooks[i]? with
  | none => s
  | some a =>
    let s := { s with hooks := s.hooks.eraseIdx i }
    if ok then s.openWebSocket a constructs else s.attemptFailed

/-! ### The listeners of a socket -/

/-- `open`. -/
def onOpen (s : WsClient) (k : ℕ) : WsClient :=
  if (s.sockets k).ready = .connecting then
    { s.setSocket k { s.sockets k with ready := .opened } with
      connected := true, reconnectAttempts := 0, outQueue := [], pinging := true }
  else s

/-- The promise that waits for the socket is rejected, unless it was settled before. -/
def reject (s : WsClient) (k : ℕ) : WsClient :=
  match (s.sockets k).promise with
  | some _ => (s.setSocket k { s.sockets k with promise := none }).attemptFailed
  | none => s

/-- The history of a client whose current socket was welcomed. -/
def noteWelcome (s : WsClient) (k : ℕ) : WsClient :=
  if s.ws = some k then { s with welcomed := true, failures := 0, lost := none } else s

/-- The first `WELCOME` of a socket resolves its promise. -/
def welcome (s : WsClient) (k : ℕ) : WsClient :=
  let s' := (s.setSocket k { s.sockets k with welcomed := true, promise := none }).noteWelcome k
  if (s.sockets k).promise = some .reconnect then s'.resubscribe else s'

/-- Is the frame the one that the socket waits for? -/
def isWelcome (s : WsClient) (k : ℕ) (msg : Js) : Bool :=
  !(s.sockets k).welcomed && decide ((msg.field "type").str? = some "WELCOME")

/-- `message`. -/
def onSocketMessage (s : WsClient) (k : ℕ) (msg : Js) : WsClient :=
  match (s.sockets k).ready with
  | .opened | .closing =>
    let s := s.withCatchUp (s.catchUp.onMessage msg)
    if s.isWelcome k msg then s.welcome k else s
  | _ => s

/-- `close`. -/
def onClose (s : WsClient) (k : ℕ) : WsClient :=
  if (s.sockets k).ready = .closed then s
  else
    let s := { s.setSocket k { s.sockets k with ready := .closed } with
      connected := false, pinging := false, catchUp := s.catchUp.dropCatchUp, outQueue := [] }
    if (s.sockets k).welcomed then s.reconnect cfg else s.reject k

/-- `error`. -/
def onError (s : WsClient) (k : ℕ) : WsClient :=
  if (s.sockets k).ready = .closed ∨ (s.sockets k).welcomed then s else s.reject k

/-- The peer starts to close the socket. -/
def onClosing (s : WsClient) (k : ℕ) : WsClient :=
  if (s.sockets k).ready = .opened then s.setSocket k { s.sockets k with ready := .closing } else s

end WsClient

/-- What a socket reports. -/
inductive SocketEvent where
  | opened
  | message (msg : Js)
  | error
  | closing
  | closed

/-- One event of a client.  A constructor or a hook may fail. -/
inductive ClientOp where
  | connect (constructs : Bool)
  | disconnect
  | setBase (constructs : Bool)
  | socket (k : ℕ) (event : SocketEvent)
  | reconnectTimer (constructs : Bool)
  | hook (i : ℕ) (ok constructs : Bool)
  | catchUpTimer
  | track (subs : List WsSub) (frames : List Js)
  | ping
  /-- queued frames go out, as many as the rate allows -/
  | drain (n : ℕ)

open WsClient

/-- One event of a socket. -/
def socketStep (cfg : WsConfig) (s : WsClient) (k : ℕ) : SocketEvent → WsClient
  | .opened => s.onOpen k
  | .message msg => s.onSocketMessage k msg
  | .error => s.onError k
  | .closing => s.onClosing k
  | .closed => s.onClose cfg k

/-- One event. -/
def clientStep (cfg : WsConfig) (s : WsClient) : ClientOp → WsClient
  | .connect constructs => s.connect cfg .caller constructs
  | .disconnect => { s.disconnect with welcomed := false }
  | .setBase constructs => s.setBase cfg constructs
  | .socket k event => socketStep cfg s k event
  | .reconnectTimer constructs => s.fireReconnect cfg constructs
  | .hook i ok constructs => s.hookDone i ok constructs
  | .catchUpTimer => s.withCatchUp s.catchUp.fireTimer
  | .track subs frames =>
    { s with catchUp := catchUpStep s.catchUp (.track subs frames.length) }.send
      (frames.map .request)
  | .ping => if s.pinging then s.send [.ping] else s
  | .drain n => { s with outQueue := if s.isOpen then s.outQueue.drop n else [] }

/-- A run of a new client. -/
def clientRun (cfg : WsConfig) (ops : List ClientOp) : WsClient := ops.foldl (clientStep cfg) .new

end XChainSdk
