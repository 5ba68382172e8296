import XChainSdk.Cosigner.TweakSafety

/-!
# The agent's half of a signing round

The agent makes a nonce for each input that it asks for, sends them with the transaction, and makes
its own partial signatures from what the daemon answers.

* `MuSig` : the library; a secret nonce is known by its number and signs once.
* `Round`, `SigningState` : rounds that wait for an answer, and the nonces and partials so far.
* `startRound`, `answerRound` : the two halves of `sign` and of `signAll`.
* `signingStep`, `signingRun` : any interleaving of the rounds of one process.
-/

namespace XChainSdk

open Hash

variable {B : Bitcoin}

/-- The MuSig2 library of the agent, for its key and the key set of the account.  An aggregate
exists only for a valid partial. -/
structure MuSig where
  Session : Type
  /-- `generateNonce`, by the number of the call -/
  publicNonce : ℕ → Bytes
  aggregateNonces : Bytes → Bytes → Option Bytes
  /-- `startSession` of an aggregate nonce, a message and tweaks -/
  startSession : Bytes → Bytes → List Bytes → Option Session
  /-- `partialSign` with a secret nonce that has not signed -/
  partialSign : ℕ → Session → Option Bytes
  partialValid : Session → Bytes → Prop
  /-- `aggregateSignatures` of the agent's partial and the daemon's -/
  aggregateSignatures : Bytes → Bytes → Session → Option Bytes
  aggregate_valid : ∀ agentSig sig session signature,
    aggregateSignatures agentSig sig session = some signature → partialValid session sig

/-- The agent's client. -/
structure SigningClient where
  internalXOnly : Bytes
  tweaks : List Bytes
  recoveryLeaves : Option (Bytes × Bytes)

/-- The client of these keys.  Tweaks may be left out; for an account of three keys they are those of
its tree. -/
def signingClient (L : KeyLibrary B) (keys : AccountKeys) (tweaks : Option (List Bytes)) :
    Option SigningClient := do
  let _ ← L.aggregateKeys keys.pair (tweaks.getD [])
  let internalXOnly ← L.aggregateKeys keys.pair []
  match keys.recoveryPublicKey with
  | none => return ⟨internalXOnly, tweaks.getD [], none⟩
  | some recovery =>
    let tree ← deriveMuSig2P2TR2of3 L keys.publicKeys.1 keys.publicKeys.2 recovery
    match tweaks with
    | none =>
      let _ ← L.aggregateKeys keys.pair tree.tweaks
      return ⟨internalXOnly, tree.tweaks, some tree.recovery⟩
    | some tweaks =>
      if tweaks = tree.tweaks then return ⟨internalXOnly, tweaks, some tree.recovery⟩ else none

/-- The inputs that a call names: `inputIndex` of `sign`, or `inputIndexes` of `signAll`. -/
inductive CallInputs where
  | one (inputIndex : Js)
  | all (inputIndexes : Js)

/-- What `sign` or `signAll` is asked for. -/
structure SignCall where
  psbt : String
  envelopeScript : Option EnvelopeArg := none
  inputs : CallInputs

/-- A round that waits for its answer. -/
structure Round where
  psbt : String
  env : Option Envelope
  indexes : List Js
  /-- by the text of the index; the first entry counts -/
  nonceByIndex : List (String × ℕ)
  /-- the one index that `sign` asks for -/
  only : Option ℚ

/-- A partial signature that the agent made in a round. -/
structure AgentPartial where
  round : Round
  nonce : ℕ
  index : ℕ
  msg : Bytes
  tweaks : List Bytes

/-- The agent's process. -/
structure SigningState where
  /-- nonces generated so far -/
  nonces : ℕ := 0
  /-- secret nonces that the library has deleted -/
  consumed : List ℕ := []
  partials : List AgentPartial := []
  pending : List Round := []

/-- A final signature. -/
structure InputSignature where
  index : Js
  signature : Bytes
  msg : Bytes

/-- What is read of one signature of the answer before a nonce is used. -/
structure ReadSignature (G : MuSig) where
  index : Js
  own : AgentPartial
  session : G.Session

section Client

variable (B : Bitcoin) (G : MuSig) (C : SigningClient)

/-! ### Before the answer -/

/-- `envelopeContext`: the envelope of a round, from the agent's own copy of the script. -/
def envelopeContext (psbtHex : String) (arg : Option EnvelopeArg) :
    Except Denial (Option Envelope) :=
  match arg with
  | none => .ok none
  | some arg =>
    match deriveEnvelopeCommit B C.internalXOnly arg.script C.recoveryLeaves with
    | none => .error .thrown
    | some commit =>
      match B.psbtFromHex psbtHex with
      | none => .error .thrown
      | some psbt =>
        match classifyEnvelopeRole B psbt commit with
        | none => deny "COSIGNER_CONFIG"
        | some role => .ok (some ⟨commit, role⟩)

/-- `Number.isInteger(x) ? x : 0`. -/
def integerOr0 : Js → ℚ
  | .num (.fin q) => if q.den = 1 then q else 0
  | _ => 0

/-- The inputs to ask for. -/
def CallInputs.indexes : CallInputs → List Js
  | .one inputIndex => [.num (.fin (integerOr0 inputIndex))]
  | .all (.arr (i :: is)) => i :: is
  | .all _ => [.num (.fin 0)]

/-- The one input that `sign` asks for. -/
def CallInputs.only : CallInputs → Option ℚ
  | .one inputIndex => some (integerOr0 inputIndex)
  | .all _ => none

/-- A new nonce for each input; for an input that is named twice the last one counts. -/
def assignNonces (first : ℕ) (indexes : List Js) : List (String × ℕ) :=
  ((indexes.zipIdx first).map fun e => (e.1.toText, e.2)).reverse

/-- The first half of a call. -/
def startRound (call : SignCall) (s : SigningState) : Except Denial Round × SigningState :=
  match envelopeContext B C call.psbt call.envelopeScript with
  | .error d => (.error d, s)
  | .ok env =>
    let indexes := call.inputs.indexes
    let round : Round :=
      ⟨call.psbt, env, indexes, assignNonces s.nonces indexes, call.inputs.only⟩
    (.ok round, { s with nonces := s.nonces + indexes.length, pending := s.pending ++ [round] })

/-! ### The answer -/

/-- `toBytes`: text is read as hexadecimal digits. -/
def clientBytes : Js → Except Denial Bytes
  | .str s => .ok (hexDecode s)
  | _ => .error .thrown

/-- A value, or this error. -/
def orDeny {α : Type} (reason : String) : Option α → Except Denial α
  | some a => .ok a
  | none => deny reason

/-- The sighash that the agent derives by itself. -/
def clientSighash (psbtHex : String) (env : Option Envelope) (i : ℕ) : Option Bytes := do
  let psbt ← B.psbtFromHex psbtHex
  guard (i < psbt.txInputs.length)
  let prevouts ← psbt.txInputs.mapM PsbtInput.witnessUtxo
  B.hashForWitnessV1 psbt.transaction i prevouts (roundLeafHash env)

/-- `assertMsgMatchesPsbt`: the daemon's message is the sighash of this input. -/
def assertMsgMatchesPsbt (round : Round) (index : Js) (msg : Bytes) : Except Denial ℕ :=
  match inputIndex index with
  | none => deny "COSIGNER_MSG_UNVERIFIABLE"
  | some i =>
    match clientSighash B round.psbt round.env i with
    | none => deny "COSIGNER_MSG_UNVERIFIABLE"
    | some expected => if expected = msg then .ok i else deny "COSIGNER_MSG_MISMATCH"

/-- The checks on one signature of the answer. -/
def readSignature (round : Round) (entry : Js) : Except Denial (ReadSignature G) := do
  let index ← (entry.get "index").elim (.error .thrown) .ok
  let nonce ← orDeny "COSIGNER_BAD_RESPONSE" (round.nonceByIndex.lookup index.toText)
  let msg ← clientBytes (entry.field "msg")
  let i ← assertMsgMatchesPsbt B round index msg
  let coNonce ← clientBytes (entry.field "publicNonce")
  let aggNonce ← orDeny "NONCE_AGG_FAILED" (G.aggregateNonces (G.publicNonce nonce) coNonce)
  let roundTweaks := envelopeRoundTweaks round.env C.tweaks
  let session ← orDeny "SESSION_START_FAILED" (G.startSession aggNonce msg roundTweaks)
  return ⟨index, ⟨round, nonce, i, msg, roundTweaks⟩, session⟩

/-- The two partials, aggregated. -/
def aggregateWith (entry : Js) (agentSig : Bytes) (session : G.Session) : Except Denial Bytes := do
  let sig ← clientBytes (entry.field "sig")
  orDeny "SIG_AGG_FAILED" (G.aggregateSignatures agentSig sig session)

/-- One signature of the answer: the agent signs, and the library deletes the nonce. -/
def signEntry (round : Round) (entry : Js) (s : SigningState) :
    Except Denial InputSignature × SigningState :=
  match readSignature B G C round entry with
  | .error d => (.error d, s)
  | .ok r =>
    if r.own.nonce ∈ s.consumed then (deny "PARTIAL_SIGN_FAILED", s)
    else
      let s' := { s with consumed := s.consumed ++ [r.own.nonce] }
      match G.partialSign r.own.nonce r.session with
      | none => (deny "PARTIAL_SIGN_FAILED", s')
      | some agentSig =>
        let s'' := { s' with partials := s'.partials ++ [r.own] }
        match aggregateWith G entry agentSig r.session with
        | .error d => (.error d, s'')
        | .ok signature => (.ok ⟨r.index, signature, r.own.msg⟩, s'')

/-- The signatures of the answer, in its order. -/
def signEntries (round : Round) : List Js → SigningState →
    Except Denial (List InputSignature) × SigningState
  | [], s => (.ok [], s)
  | entry :: entries, s =>
    match signEntry B G C round entry s with
    | (.error d, s') => (.error d, s')
    | (.ok signature, s') =>
      match signEntries round entries s' with
      | (.error d, s'') => (.error d, s'')
      | (.ok signatures, s'') => (.ok (signature :: signatures), s'')

/-- `sign` takes one signature, of the input that it asked for. -/
def checkOnly (only : ℚ) (entries : List Js) : Except Denial (List Js) :=
  match entries with
  | [entry] =>
    match entry.get "index" with
    | none => .error .thrown
    | some (.num (.fin q)) => if q = only then .ok [entry] else deny "COSIGNER_BAD_RESPONSE"
    | some _ => deny "COSIGNER_BAD_RESPONSE"
  | _ => deny "COSIGNER_BAD_RESPONSE"

/-- The signatures of an answer: approved, and a list. -/
def readAnswer (round : Round) (res : Js) : Except Denial (List Js) :=
  match res.field "approved" with
  | .bool true =>
    match res.field "signatures" with
    | .arr entries => round.only.elim (.ok entries) fun only => checkOnly only entries
    | _ => deny "COSIGNER_BAD_RESPONSE"
  | _ => deny ((res.field "reason").or (.str "COSIGNER_DENIED")).toText

/-- The second half of a call. -/
def answerRound (round : Round) (res : Js) (s : SigningState) :
    Except Denial (List InputSignature) × SigningState :=
  match readAnswer round res with
  | .error d => (.error d, s)
  | .ok entries => signEntries B G C round entries s

/-! ### Rounds of one process -/

/-- A call starts a round, or one of the rounds that wait gets its answer. -/
inductive SigningEvent where
  | call (call : SignCall)
  | answer (i : ℕ) (res : Js)

/-- The round that is answered no longer waits. -/
def SigningState.take (s : SigningState) (i : ℕ) : SigningState :=
  { s with pending := s.pending.eraseIdx i }

/-- One event. -/
def signingStep (s : SigningState) : SigningEvent → SigningState
  | .call call => (startRound B C call s).2
  | .answer i res =>
    match s.pending[i]? with
    | none => s
    | some round => (answerRound B G C round res (s.take i)).2

/-- The process after some events. -/
def signingRun (events : List SigningEvent) : SigningState :=
  events.foldl (signingStep B G C) {}

end Client

end XChainSdk
