import XChainSdk.Lib.Traced
import XChainSdk.Carrier.ActionWaiter

/-!
# Submitting an action

One submission builds, reconciles, binds, signs and broadcasts one transaction or two, and waits for
the indexer and for a contract.

* `SubmitEvent` : what a submission does, in order; signed bytes leave with a broadcast, and with
  the request for the reveal of a chunked action.
* `TxCodec` : what is read of transactions.
* `SubmitWorld` : what every gate, signer, remote call and callback answers.
* `stage`, `prepareChunkReveal`, `release`, `settle` : the parts of `submitAction`.
-/

namespace XChainSdk

open Js

/-- The transactions of a submission. -/
inductive SubmissionTx where
  | transaction
  | envelopeReveal
  | chunkReveal
  deriving DecidableEq

/-- A signed transaction. -/
structure SignedTx where
  txHex : String
  txid : String

/-- What a submission does. -/
inductive SubmitEvent where
  | progress (step : String) (data : Js)
  | createTx
  | reconciled (tx : SubmissionTx)
  | bound (tx : SubmissionTx)
  | signed (tx : SubmissionTx) (signed : SignedTx)
  | spendP2sh (p2shHash p2shHex : String)
  | broadcast (tx : SubmissionTx) (txHex : String)
  | accepted (tx : SubmissionTx) (signed : SignedTx)

/-- Signed bytes leave the program. -/
def SubmitEvent.releases : SubmitEvent → Bool
  | spendP2sh _ _ | broadcast _ _ => true
  | _ => false

/-- A submission, as a computation: errors are thrown values. -/
abbrev Submit (α : Type) := Traced Js SubmitEvent α

/-- An output of a transaction, by the lower-case hexadecimal of its id. -/
structure Outpoint where
  txid : String
  vout : ℕ
  lower : asciiLower txid = txid
  deriving DecidableEq

/-- `txid + ':' + vout`. -/
def Outpoint.key (o : Outpoint) : String :=
  o.txid ++ ":" ++ numberToString (.fin o.vout)

/-- The object that a spent output is. -/
def Outpoint.entry (o : Outpoint) : Js := .obj [("txid", str o.txid), ("vout", .num (.fin o.vout))]

/-- A transaction, as its bytes are read. -/
structure RawTx where
  txid : String
  lower : asciiLower txid = txid
  inputs : List Outpoint
  /-- the scripts and values of its outputs -/
  outputs : List (String × Js)

/-- What the library for transactions reads; `none` is a thrown error. -/
structure TxCodec where
  /-- `Transaction.fromHex` -/
  transaction : String → Option RawTx
  /-- `Psbt.fromHex(x).txInputs` -/
  psbtInputs : Js → Option (List Outpoint)
  /-- `address.toOutputScript`, in hexadecimal -/
  toOutputScript : Js → Option String

/-- A change output. -/
structure Utxo where
  outpoint : Outpoint
  value : Js
  scriptPubKey : String

/-- The object that a change output is. -/
def Utxo.entry (u : Utxo) : Js :=
  .obj [("txid", str u.outpoint.txid), ("vout", .num (.fin u.outpoint.vout)), ("value", u.value),
    ("scriptPubKey", str u.scriptPubKey), ("confirmations", .num (.fin 0))]

/-- `extractSpentInputs`. -/
def extractSpentInputs (C : TxCodec) (psbt : Js) : List Outpoint := (C.psbtInputs psbt).getD []

/-- The outputs of a transaction to a script. -/
def RawTx.outputsTo (tx : RawTx) (script : String) : List Utxo :=
  tx.outputs.zipIdx.filterMap fun (out, vout) =>
    if out.1 = script then some ⟨⟨tx.txid, vout, tx.lower⟩, out.2, script⟩ else none

/-- `extractChangeOutputs`: an address that does not parse has no outputs. -/
def extractChangeOutputs (C : TxCodec) (txHex : String) (changeAddress : Js) : List Utxo :=
  if txHex = "" || !changeAddress.truthy then []
  else
    match C.toOutputScript changeAddress, C.transaction txHex with
    | some script, some tx => tx.outputsTo script
    | _, _ => []

/-- What the submission is asked for. -/
structure SubmitCall where
  actionData : Js
  encoderOpts : Js
  opts : Js
  awaitContract : Option ContractGate := none

/-- What the gates, the signers, the remote calls and the callback answer. -/
structure SubmitWorld where
  progress : String → Except Js Unit
  requireEncoder : Except Js Unit
  assertMainnetLaunched : Except Js Unit
  assertFresh : Except Js Unit
  /-- the two resolvers, and `createAction` of what they resolve -/
  resolveTicks : Js → Except Js Js
  resolveAddresses : Js → Except Js Js
  createAction : Js → Except Js Js
  createTx : Except Js Js
  /-- `envelopeFundingFor` of a reveal -/
  envelopeFunding : Except Js Unit
  reconcile : SubmissionTx → Except Js Unit
  bind : SubmissionTx → Except Js Unit
  /-- the caller's signer, when there is one -/
  signer : Option (Except Js SignedTx)
  sign : SubmissionTx → Except Js SignedTx
  spendP2sh : Except Js Js
  broadcastTx : SubmissionTx → Except Js Unit
  /-- the network has a transaction although the answer to its broadcast was an error -/
  reached : SubmissionTx → Bool
  /-- `resolveExplorer` -/
  explorer : Except Js Unit
  polls : List (Except Js Js)

/-- The result of a submission. -/
structure SubmitResult where
  txid : String
  actionString : Js
  action : Js
  version : Js
  encoding : Js
  signed : SignedTx
  spentInputs : List Outpoint
  changeOutputs : List Utxo
  indexed : Js := .null
  contractState : Js := .undefined
  contractBalance : Js := .undefined

/-- The bytes that the encoder carries. -/
structure CarriedAction where
  carriedActionString : Js
  carriedRawData : Js
  encoderCompressed : Bool

/-- What is known when the first transaction, and the reveal of an envelope, are signed. -/
structure Staged where
  createResult : Js
  encoded : Js
  carried : CarriedAction
  signed : SignedTx
  revealSigned : Option SignedTx

/-- The reveal of a chunked action. -/
structure Phase2 where
  spendResult : Js
  spendSigned : SignedTx

/-- The encoding is a chunked one. -/
def isChunked (encoded : Js) : Bool :=
  (encoded.field "encoding").isStr "P2SH" || (encoded.field "encoding").isStr "P2WSH"

section Submit

variable (H : Host) (C : TxCodec) (S : SubmitCall) (W : SubmitWorld)

/-- The callback. -/
def progress (step : String) (data : List (String × Js)) : Submit Unit :=
  .call (.progress step (.obj data)) (W.progress step)

/-- `normalizeSubmission`. -/
def normalizeSubmission : Except Js Unit :=
  if !(S.opts.field "wif").truthy then .error (sdkError "SDKConfigError" "MISSING_WIF" [])
  else W.requireEncoder

def SubmitCall.waitForIndexer : Bool :=
  match S.opts.field "waitForIndexer" with
  | .undefined => true
  | x => x.truthy

def CONTRACT_ACTIONS : List String := ["DEPOSIT", "EXECUTE", "WITHDRAW"]

/-- A contract action defaults to fail-closed. -/
def SubmitCall.waitOptions : WaitOptions where
  timeout := (S.opts.field "timeout").or (.num (.fin 120000))
  requireValid :=
    match S.opts.field "requireValid" with
    | .bool false => false
    | _ => true
  strictStatus :=
    match S.opts.field "strictStatus" with
    | .undefined =>
      CONTRACT_ACTIONS.contains (H.toUpperCase (S.actionData.getIf "action").toText)
    | .bool b => b
    | _ => false

/-- The addresses of an action are compacted, unless the caller does without. -/
def compactAddresses (params : Js) : Except Js Js :=
  if (S.opts.field "skipAddressCompaction").truthy then .ok params else W.resolveAddresses params

/-- `buildTransactionRequest`, after the resolvers. -/
def resolveAction : Submit Js := do
  let params ← .lift (W.resolveTicks (S.actionData.field "params"))
  let params ← .lift (compactAddresses S W params)
  let createResult ← .lift (W.createAction params)
  progress W "encoding" [("actionString", createResult.field "actionString")]
  return createResult

/-- `readCarriedAction`. -/
def readCarriedAction (encoded createResult : Js) : Except Js CarriedAction :=
  match encoded.get "compression" with
  | none => .error (.obj [("name", str "TypeError")])
  | some compression =>
    if (compression.getIf "compressed").truthy then
      match compression.field "data", compression.field "rawData" with
      | .str data, .str rawData =>
        if data = "" then .error (sdkError "SDKActionError" "COMPRESSION_BYTES_UNREPORTED" [])
        else .ok ⟨str data, str rawData, true⟩
      | _, _ => .error (sdkError "SDKActionError" "COMPRESSION_BYTES_UNREPORTED" [])
    else .ok ⟨createResult.field "actionString", S.encoderOpts.field "rawData", false⟩

/-- `reconcileTransaction`: both transactions of an envelope are reconciled, the first is bound. -/
def reconcileTransaction (encoded : Js) : Submit Unit := do
  let reveals := (encoded.field "revealPsbt").truthy
  .onlyIf reveals (.lift W.envelopeFunding)
  .passed (fun _ => .reconciled .transaction) (W.reconcile .transaction)
  .onlyIf reveals
    (.passed (fun _ => .reconciled .envelopeReveal) (W.reconcile .envelopeReveal))
  .passed (fun _ => .bound .transaction) (W.bind .transaction)

/-- `validateCustomSigner`. -/
def validateCustomSigner (encoded : Js) : Except Js Unit :=
  if isChunked encoded || (encoded.field "revealPsbt").truthy then
    .error (sdkError "SDKActionError" "SIGNER_ENCODING_UNSUPPORTED" [])
  else .ok ()

/-- The first transaction is signed by the caller's signer or by the wallet. -/
def signTransaction (encoded : Js) : Submit SignedTx :=
  match W.signer with
  | some signed => do
    .lift (validateCustomSigner encoded)
    .passed (.signed .transaction) signed
  | none => .passed (.signed .transaction) (W.sign .transaction)

/-- `prepareEnvelope`: the reveal is bound and signed before the commit is broadcast. -/
def prepareEnvelope (encoded : Js) : Submit (Option SignedTx) :=
  if (encoded.field "revealPsbt").truthy then do
    .passed (fun _ => .bound .envelopeReveal) (W.bind .envelopeReveal)
    let revealSigned ← .passed (.signed .envelopeReveal) (W.sign .envelopeReveal)
    progress W "envelope_recovery_record" [("recovery", (encoded.field "envelope").or .null)]
    return some revealSigned
  else pure none

/-- `submitAction` up to the first signatures. -/
def stage : Submit Staged := do
  .lift (normalizeSubmission S W)
  .lift W.assertMainnetLaunched
  .onlyIf (S.opts.field "strictFreshness").truthy (.lift W.assertFresh)
  progress W "creating" [("action", S.actionData.field "action")]
  let createResult ← resolveAction S W
  let encoded ← .call .createTx W.createTx
  let carried ← .lift (readCarriedAction S encoded createResult)
  reconcileTransaction W encoded
  progress W "signing" [("encoding", encoded.field "encoding")]
  let signed ← signTransaction W encoded
  let revealSigned ← prepareEnvelope W encoded
  return ⟨createResult, encoded, carried, signed, revealSigned⟩

/-- `spendP2sh` of the encoder's client: the request carries the signed first transaction. -/
def spendP2sh (signed : SignedTx) : Submit Js :=
  if !(S.encoderOpts.field "pubkey").truthy then
    .lift (.error (sdkError "SDKEncoderError" "MISSING_PUBKEY" []))
  else if signed.txid = "" then
    .lift (.error (sdkError "SDKEncoderError" "MISSING_P2SH_HASH" []))
  else if signed.txHex = "" then
    .lift (.error (sdkError "SDKEncoderError" "MISSING_P2SH_HEX" []))
  else .call (.spendP2sh signed.txid signed.txHex) W.spendP2sh

/-- `prepareChunkReveal`, with `preparePhase2`: the reveal is built by the encoder from the signed
first transaction, and then reconciled, bound and signed. -/
def prepareChunkReveal (s : Staged) : Submit (Option Phase2) :=
  if isChunked s.encoded then do
    progress W "p2sh_spending" [("phase1Txid", str s.signed.txid)]
    let spendResult ← spendP2sh S W s.signed
    .passed (fun _ => .reconciled .chunkReveal) (W.reconcile .chunkReveal)
    .passed (fun _ => .bound .chunkReveal) (W.bind .chunkReveal)
    let spendSigned ← .passed (.signed .chunkReveal) (W.sign .chunkReveal)
    return some ⟨spendResult, spendSigned⟩
  else pure none

/-- `broadcastTx`: the network takes the transaction, or not, whatever the answer says. -/
def broadcastTx (tx : SubmissionTx) (signed : SignedTx) : Submit Unit :=
  if signed.txHex = "" then .lift (.error (sdkError "SDKEncoderError" "MISSING_TX_HEX" []))
  else do
    .call (.broadcast tx signed.txHex) (.ok ())
    match W.broadcastTx tx with
    | .ok () => .call (.accepted tx signed) (.ok ())
    | .error e => if W.reached tx then .call (.accepted tx signed) (.error e) else .lift (.error e)

/-- `buildEnvelopeBroadcastError`. -/
def buildEnvelopeBroadcastError (s : Staged) (revealSigned : SignedTx) (error : Js) : Js :=
  sdkError "SDKActionError" "ENVELOPE_REVEAL_BROADCAST_FAILED"
    [("commitTxid", str s.signed.txid), ("recovery", (s.encoded.field "envelope").or .null),
      ("revealTxHex", str revealSigned.txHex), ("cause", error)]

/-- `buildChunkRevealBroadcastError`. -/
def buildChunkRevealBroadcastError (s : Staged) (spendSigned : SignedTx) (error : Js) : Js :=
  sdkError "SDKActionError" "CHUNK_REVEAL_BROADCAST_FAILED"
    [("commitTxid", str s.signed.txid), ("revealTxid", str spendSigned.txid),
      ("revealTxHex", str spendSigned.txHex), ("cause", error)]

/-- The reveal of an envelope is broadcast after its commit. -/
def releaseEnvelope (s : Staged) : Submit Unit :=
  match s.revealSigned with
  | some revealSigned => do
    progress W "envelope_revealing" [("commitTxid", str s.signed.txid)]
    (broadcastTx W .envelopeReveal revealSigned).catching
      (buildEnvelopeBroadcastError s revealSigned)
  | none => pure ()

/-- The reveal of a chunked action is broadcast last. -/
def releaseChunks (s : Staged) (phase2 : Option Phase2) : Submit Unit :=
  match phase2 with
  | some phase2 =>
    (broadcastTx W .chunkReveal phase2.spendSigned).catching
      (buildChunkRevealBroadcastError s phase2.spendSigned)
  | none => pure ()

/-- The broadcasts. -/
def release (s : Staged) (phase2 : Option Phase2) : Submit Unit := do
  progress W "broadcasting" [("txid", str s.signed.txid)]
  broadcastTx W .transaction s.signed
  releaseEnvelope W s
  releaseChunks W s phase2

/-- The transaction that stands for the action: of an envelope its reveal, else the last one. -/
def finalTx (s : Staged) (phase2 : Option Phase2) : SignedTx :=
  match s.revealSigned, phase2 with
  | some revealSigned, _ => revealSigned
  | none, some phase2 => phase2.spendSigned
  | none, none => s.signed

/-- The transactions of a submission, before and after they are signed. -/
def sentTxs (s : Staged) (phase2 : Option Phase2) : List (Js × SignedTx) :=
  [(s.encoded.field "psbt", s.signed)] ++
    (s.revealSigned.map fun r => (s.encoded.field "revealPsbt", r)).toList ++
    (phase2.map fun p => (p.spendResult.field "psbt", p.spendSigned)).toList

/-- The address that change goes to. -/
def SubmitCall.changeAddress : Js :=
  (S.encoderOpts.field "change").or (S.encoderOpts.field "pubkey")

/-- `shapeResult`: change that no transaction of the submission spends. -/
def shapeResult (s : Staged) (phase2 : Option Phase2) : SubmitResult :=
  let sent := sentTxs s phase2
  let spentInputs := sent.flatMap fun tx => extractSpentInputs C tx.1
  let spentSet := spentInputs.map Outpoint.key
  let changeOutputs := sent.flatMap fun tx => extractChangeOutputs C tx.2.txHex S.changeAddress
  let changeOutputs := changeOutputs.filter fun out => !spentSet.contains out.outpoint.key
  { txid := (finalTx s phase2).txid
    actionString := s.carried.carriedActionString
    action := s.createResult.field "action"
    version := s.createResult.field "version"
    encoding := s.encoded.field "encoding"
    signed := finalTx s phase2
    spentInputs
    changeOutputs }

/-- The wait for the indexer, when there is one. -/
def waitIndexed (result : SubmitResult) : Submit SubmitResult :=
  if S.waitForIndexer then do
    progress W "waiting" [("txid", str result.txid)]
    let indexed ← Traced.catching (.lift do
      W.explorer
      waitForTxid result.txid (S.waitOptions H) W.polls none) (markConfirmationTimeout result.txid)
    progress W "confirmed" [("txid", str result.txid), ("action", indexed)]
    return { result with indexed }
  else pure result

/-- The time that a gate gives to each of its waits. -/
def SubmitCall.gateTimeout (gate : ContractGate) : Js :=
  if (gate.fields.field "timeout").isUndef then (S.opts.field "timeout").or (.num (.fin 120000))
  else gate.fields.field "timeout"

/-- The gate waits for the state of its contract. -/
def waitsForState (gate : ContractGate) : Bool :=
  !(gate.fields.field "key").isUndef || gate.hasMatch

/-- The wait for the state of a contract. -/
def waitState (gate : ContractGate) (index : Js) (result : SubmitResult) : Submit SubmitResult :=
  if waitsForState gate then do
    progress W "waiting_contract_state"
      [("contractActionIndex", index), ("key", gate.fields.field "key")]
    let contractState ←
      .lift (waitForContractState gate index (S.gateTimeout gate) W.explorer)
    return { result with contractState }
  else pure result

/-- The wait for a balance of a contract. -/
def waitBalance (gate : ContractGate) (index : Js) (result : SubmitResult) :
    Submit SubmitResult :=
  if (gate.fields.field "tick").truthy then do
    progress W "waiting_contract_balance"
      [("contractActionIndex", index), ("tick", gate.fields.field "tick")]
    let contractBalance ←
      .lift (waitForContractBalance gate index (S.gateTimeout gate) W.explorer)
    return { result with contractBalance }
  else pure result

/-- `waitForContract`. -/
def waitForContract (gate : ContractGate) (result : SubmitResult) : Submit SubmitResult := do
  let index := gate.index S.actionData
  .onlyIf (isAbsentIndex index) (.lift (.error missingContractIndex))
  let result ← (waitState S W gate index result >>= waitBalance S W gate index).catching
    (markContractTimeout result.txid)
  progress W "contract_settled" [("contractActionIndex", index),
    ("state", result.contractState.or .null), ("balance", result.contractBalance.or .null)]
  return result

/-- The contract gate, when there is one. -/
def settleContract (result : SubmitResult) : Submit SubmitResult :=
  match S.awaitContract with
  | some gate => waitForContract S W gate result
  | none => pure result

/-- What follows the broadcasts. -/
def settle (s : Staged) (phase2 : Option Phase2) : Submit SubmitResult := do
  let result ← waitIndexed H S W (shapeResult C S s phase2)
  settleContract S W result

/-- `submitAction`. -/
def submitAction : Submit SubmitResult := do
  let s ← stage S W
  let phase2 ← prepareChunkReveal S W s
  release W s phase2
  settle H C S W s phase2

end Submit

end XChainSdk
