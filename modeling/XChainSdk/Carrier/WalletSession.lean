import XChainSdk.Carrier.Submission

/-!
# A wallet session

A session submits actions one after the other and keeps the outputs that it can spend: those that
the tracker lists, without those it has spent, and the change of its own transactions.

* `SessionCache` : the cache of a session, with the two halves of a refresh.
* `sessionStep` : a submission starts, is answered by the tracker, and ends; a refresh of the caller
  starts and is answered at any time.
* `Offer` : a set that goes to the encoder, with the transactions that were broadcast before.
-/

namespace XChainSdk

open Js

/-! ### The cache -/

/-- `u.txid + ':' + u.vout` of a tracked output; nothing when `u` is nullish. -/
def cachedKey (u : Js) : Option String := do
  let txid ← u.get "txid"
  let vout ← u.get "vout"
  return txid.toText ++ ":" ++ vout.toText

/-- The cache as a session uses it: its address is that of the session, known from the first refresh
on, and its change is that of the session's own transactions. -/
structure SessionCache where
  utxos : List Js := []
  spent : List String := []
  speculative : List Utxo := []
  addressed : Bool := false
  stale : Bool := true

/-- An output of the cache: tracked, or change of a transaction of the session. -/
inductive CacheEntry where
  | tracked (u : Js)
  | speculative (u : Utxo)

def CacheEntry.entry : CacheEntry → Js
  | tracked u => u
  | speculative u => u.entry

/-- `refresh` before the tracker is asked. -/
def SessionCache.startRefresh (c : SessionCache) : SessionCache :=
  if c.addressed then c else { c with addressed := true, spent := [], speculative := [] }

/-- The list that an answer of the tracker holds. -/
def trackedList (answer : Js) : List Js :=
  match answer.getIf "utxos" with
  | .arr us => us
  | _ => answer.elems

/-- `refresh` after the tracker has answered, and whether it ends well: a nullish entry throws. -/
def SessionCache.finishRefresh (c : SessionCache) (answer : Js) : SessionCache × Bool :=
  let utxos := trackedList answer
  let c := { c with utxos, stale := false }
  if utxos.any isNullish then (c, false)
  else
    let confirmedSet := utxos.filterMap cachedKey
    let speculative := c.speculative.filter fun u =>
      !confirmedSet.contains u.outpoint.key && !c.spent.contains u.outpoint.key
    ({ c with speculative }, true)

/-- The entries of the cache, in its order. -/
def SessionCache.entries (c : SessionCache) : List CacheEntry :=
  c.utxos.map .tracked ++ c.speculative.map .speculative

/-- `getAvailable`. -/
def SessionCache.getAvailable (c : SessionCache) : Option (List CacheEntry) :=
  if c.utxos.any isNullish then none
  else some (c.entries.filter fun e => !(cachedKey e.entry).any c.spent.contains)

/-- `markSpent`. -/
def SessionCache.markSpent (c : SessionCache) (inputs : List Outpoint) : SessionCache :=
  { c with spent := inputs.map Outpoint.key ++ c.spent }

/-- `addSpeculative`. -/
def SessionCache.addSpeculative (c : SessionCache) (u : Utxo) : SessionCache :=
  if u.outpoint.txid = "" || (c.speculative.map fun v => v.outpoint.key).contains u.outpoint.key
  then c else { c with speculative := c.speculative ++ [u] }

/-! ### The session -/

/-- What does not change in a session. -/
structure SessionConfig where
  host : Host
  codec : TxCodec
  address : String
  wif : String
  defaultOpts : List (String × Js)

/-- A call of `submit`. -/
structure SessionCall where
  actionData : Js
  encoderOpts : List (String × Js)
  submitOpts : List (String × Js)
  awaitContract : Option ContractGate := none

/-- The caller brings its own outputs. -/
def SessionCall.explicit (call : SessionCall) : Bool :=
  ((obj call.encoderOpts).field "utxos").truthy

def SessionCall.wantsUnconfirmed (call : SessionCall) : Bool :=
  match (obj call.encoderOpts).field "unconfirmed" with
  | .bool b => b
  | _ => false

def SessionCall.refusesUnconfirmed (call : SessionCall) : Bool :=
  match (obj call.encoderOpts).field "unconfirmed" with
  | .bool b => !b
  | _ => false

/-- A set that goes to the encoder. -/
structure Offer where
  set : List CacheEntry
  /-- the transactions of the session that are broadcast before -/
  sent : List RawTx

/-- Where the submission that runs is. -/
inductive SessionPhase where
  | idle
  /-- the tracker is asked, a second time when the cache was drained -/
  | pulling (call : SessionCall) (drained : Bool)
  | submitting (call : SubmitCall)

structure SessionState where
  cache : SessionCache := {}
  phase : SessionPhase := .idle
  /-- the refreshes of the caller that are not answered -/
  pending : ℕ := 0
  offers : List Offer := []
  sent : List RawTx := []

inductive SessionEvent where
  /-- the next submission of the queue starts -/
  | submit (call : SessionCall)
  /-- the tracker answers it, or fails -/
  | pulled (answer : Option Js)
  /-- it runs to its end -/
  | settled (W : SubmitWorld)
  /-- the caller refreshes -/
  | refresh
  | refreshed (answer : Option Js)

section Session

variable (K : SessionConfig)

/-- `buildEncoderOptions` and `submitAndTrack`: what is submitted with a set. -/
def submitCall (call : SessionCall) (set : Option (List CacheEntry)) : SubmitCall where
  actionData := call.actionData
  encoderOpts := obj (
    (set.map fun es => ("utxos", Js.arr (es.map CacheEntry.entry))).toList ++ call.encoderOpts ++
      [("pubkey", str K.address), ("change", str K.address)])
  opts :=
    let skip := ((obj call.submitOpts).field "skipAddressCompaction").truthy
    obj ([("wif", str K.wif), ("skipAddressCompaction", .bool skip)] ++ call.submitOpts ++
      K.defaultOpts)
  awaitContract := call.awaitContract

/-- `Number(u.confirmations) !== 0`. -/
def isConfirmed (e : CacheEntry) : Bool :=
  (e.entry.field "confirmations").toNumber != .fin 0

/-- The set that the session brings; nothing when the caller brings its own or there is none, and an
error when only unconfirmed outputs are there and they are refused. -/
def chosenSet (call : SessionCall) (set : List CacheEntry) : Option (Option (List CacheEntry)) :=
  if call.explicit || set.isEmpty then some none
  else if call.refusesUnconfirmed then
    let confirmedOnly := set.filter isConfirmed
    if confirmedOnly.isEmpty then none else some (some confirmedOnly)
  else some (some set)

/-- The encoder gets a set. -/
def offer (call : SessionCall) (s : SessionState) (set : List CacheEntry) : SessionState :=
  match chosenSet call set with
  | none => { s with phase := .idle }
  | some chosen =>
    { s with
      offers := s.offers ++ chosen.toList.map fun set => ⟨set, s.sent⟩
      phase := .submitting (submitCall K call chosen) }

/-- `loadAvailableUTXOs` from its reading of the cache on. -/
def choose (call : SessionCall) (s : SessionState) (justRefreshed : Bool) : SessionState :=
  match s.cache.getAvailable with
  | none => { s with phase := .idle }
  | some set =>
    if !call.explicit && set.isEmpty && !s.cache.stale && !justRefreshed then
      { s with cache := s.cache.startRefresh, phase := .pulling call true }
    else offer K call s set

/-- The submission pulls the view of the tracker before it reads the cache. -/
def SessionCall.pulls (call : SessionCall) (c : SessionCache) : Bool :=
  !call.explicit && (call.wantsUnconfirmed || c.stale)

/-- The transactions that the network has. -/
def broadcastTxs (C : TxCodec) (t : List SubmitEvent) : List RawTx :=
  t.filterMap fun e =>
    match e with
    | .accepted _ signed => C.transaction signed.txHex
    | _ => none

/-- `submitAndTrack` after `submitAction`. -/
def track (c : SessionCache) (result : SubmitResult) : SessionCache :=
  result.changeOutputs.foldl SessionCache.addSpeculative (c.markSpent result.spentInputs)

/-- A step of the session. -/
def sessionStep (s : SessionState) : SessionEvent → SessionState
  | .submit call =>
    match s.phase with
    | .idle =>
      if call.pulls s.cache then
        { s with cache := s.cache.startRefresh, phase := .pulling call false }
      else choose K call s false
    -- the submission waits for the one before it
    | _ => s
  | .pulled answer =>
    match s.phase, answer with
    | .pulling _ _, none => { s with phase := .idle }
    | .pulling call drained, some answer =>
      let (cache, ok) := s.cache.finishRefresh answer
      let s := { s with cache }
      if !ok then { s with phase := .idle }
      else if drained then
        match cache.getAvailable with
        | none => { s with phase := .idle }
        | some set => offer K call s set
      else choose K call s true
    | _, _ => s
  | .settled W =>
    match s.phase with
    | .submitting call =>
      let run := submitAction K.host K.codec call W
      let s := { s with phase := .idle, sent := s.sent ++ broadcastTxs K.codec run.trace }
      match run.outcome with
      | .ok result => { s with cache := track s.cache result }
      | .error _ => s
    | _ => s
  | .refresh => { s with cache := s.cache.startRefresh, pending := s.pending + 1 }
  | .refreshed answer =>
    if s.pending = 0 then s
    else
      let s := { s with pending := s.pending - 1 }
      match answer with
      | none => s
      | some answer => { s with cache := (s.cache.finishRefresh answer).1 }

def sessionRun (s : SessionState) (es : List SessionEvent) : SessionState :=
  es.foldl (sessionStep K) s

end Session

end XChainSdk
