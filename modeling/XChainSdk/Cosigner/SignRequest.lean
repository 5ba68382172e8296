import XChainSdk.Cosigner.Envelope
import XChainSdk.Cosigner.PolicySoundness
import XChainSdk.Cosigner.WindowLedger

/-!
# Signing requests

One request is judged from its transaction: the inputs, the envelope it belongs to, the action it
carries under the policy and the window, the gates on outputs and fee, and then it is signed and
charged.

* `Request`, `Decoder` : what the agent sends, and the reader of the action.
* `prepareRequest`, `evaluateRequest`, `checkTransaction`, `signInputs` : the stages.
* `process` : one request, with the window store before and after it.
-/

namespace XChainSdk

open Hash

/-- The transaction of a request. -/
inductive PsbtArg where
  | hex (text : String)
  | psbt (psbt : Psbt)
  | missing

/-- The envelope script of a request. -/
inductive EnvelopeArg where
  | bytes (script : Bytes)
  | other (script : Js)

/-- What the agent asks to be signed. -/
structure Request where
  psbt : PsbtArg
  inputs : Js
  envelope : Option EnvelopeArg := none
  sighashType : Js := .undefined

/-- The reader of the action: from a transaction, or from an envelope script.  A failure is its
reason; what it reads are texts, and lists under the names of variadic tails. -/
structure Decoder where
  decodeActionFromPsbt : Psbt → Except String ActionData
  decodeEnvelopeAction : Bytes → Except String ActionData
  texts : ∀ psbt data, decodeActionFromPsbt psbt = .ok data → DecodedParams data.params
  envelopeTexts : ∀ script data, decodeEnvelopeAction script = .ok data → DecodedParams data.params

/-- One partial signature. -/
structure PartialSignature where
  index : ℕ
  publicNonce : Bytes
  sig : Bytes
  msg : Bytes

/-- An approval. -/
structure Approval where
  action : Js
  signatures : List PartialSignature
  envelopeRole : Option EnvelopeRole

section Process

variable (H : Host) (M : MathJs) {B : Bitcoin} (D : Decoder) (self : CoSigner B)

/-- The transaction and the inputs that are asked for. -/
def readRequest (req : Request) : Except Denial (Psbt × List Js) := do
  let psbt ← match req.psbt with
    | .hex text =>
      match B.psbtFromHex text with
      | some psbt => .ok psbt
      | none => deny "PSBT_PARSE_FAILED"
    | .psbt psbt => .ok psbt
    | .missing => deny "NO_PSBT"
  match req.inputs with
  | .arr (it :: inputs) =>
    if self.maxCosignInputs < (it :: inputs).length then deny "TOO_MANY_INPUTS"
    else if self.maxCosignInputs < psbt.txInputs.length then deny "TOO_MANY_INPUTS"
    else .ok (psbt, it :: inputs)
  | _ => deny "NO_INPUTS_REQUESTED"

/-- The loop over the requested inputs. -/
structure InputScan where
  seenIdx : List ℕ
  accountScript : Option Bytes

/-- `Number.isInteger(i) && i >= 0`. -/
def inputIndex : Js → Option ℕ
  | .num (.fin q) => if q.den = 1 ∧ 0 ≤ q then some q.num.toNat else none
  | _ => none

/-- One requested input: in range, not asked for twice, and of the same account. -/
def validateInput (psbt : Psbt) (s : InputScan) (it : Js) : Except Denial InputScan :=
  match it.get "index" with
  | none => .error .thrown
  | some index =>
    match inputIndex index with
    | none => deny "INPUT_INDEX_OUT_OF_RANGE"
    | some i =>
      if psbt.txInputs.length ≤ i then deny "INPUT_INDEX_OUT_OF_RANGE"
      else if s.seenIdx.contains i then deny "DUPLICATE_INPUT_INDEX"
      else
        match prevoutScript psbt i, s.accountScript with
        | none, _ => deny "CANNOT_CHECK_OUTPUTS"
        | some script, none => .ok ⟨s.seenIdx ++ [i], some script⟩
        | some script, some accountScript =>
          if script = accountScript then .ok ⟨s.seenIdx ++ [i], some accountScript⟩
          else deny "MIXED_INPUT_SCRIPTS"

/-- The requested inputs, by index. -/
def validateInputs (psbt : Psbt) (inputs : List Js) : Except Denial InputScan :=
  inputs.foldlM (validateInput psbt) ⟨[], none⟩

/-- The script that a request names. -/
def EnvelopeArg.script : EnvelopeArg → Bytes
  | .bytes script => script
  | .other script => hexDecode script.toText

/-- The envelope of a request, with the role that the transaction gives it. -/
def deriveEnvelope (req : Request) (psbt : Psbt) : Except Denial (Option Envelope) :=
  match req.envelope with
  | none => .ok none
  | some arg =>
    match deriveEnvelopeCommit B self.internalXOnly arg.script self.recoveryLeaves with
    | none => deny "ENVELOPE_SCRIPT_INVALID"
    | some commit =>
      match classifyEnvelopeRole B psbt commit with
      | none => deny "ENVELOPE_NOT_COMMITTED"
      | some role => .ok (some ⟨commit, role⟩)

/-- The action of a request: on a commit and a cancel it is in the leaf and not in the transaction. -/
def decodeRequest (psbt : Psbt) (env : Option Envelope) : Except Denial ActionData :=
  let decoded := match env with
    | some ⟨commit, .commit⟩ | some ⟨commit, .cancel⟩ => D.decodeEnvelopeAction commit.script
    | some ⟨_, .reveal⟩ | none => D.decodeActionFromPsbt psbt
  match decoded with
  | .ok data => .ok data
  | .error reason => deny ("DECODE_" ++ reason)

/-- What the stages before the window establish. -/
structure PreparedRequest where
  psbt : Psbt
  inputs : List Js
  seenIdx : List ℕ
  env : Option Envelope
  decoded : ActionData

/-- Everything before the window is read. -/
def prepareRequest (req : Request) : Except Denial PreparedRequest := do
  let (psbt, inputs) ← readRequest self req
  let validated ← validateInputs psbt inputs
  let env ← deriveEnvelope self req psbt
  let decoded ← decodeRequest D psbt env
  return ⟨psbt, inputs, validated.seenIdx, env, decoded⟩

/-- The envelope of a request has this role. -/
def hasRole (env : Option Envelope) (role : EnvelopeRole) : Bool :=
  match env with
  | some env => decide (env.role = role)
  | none => false

/-- The txid of the commit that a reveal spends. -/
def revealCommitTxid (psbt : Psbt) : Option String :=
  psbt.txInputs.head?.bind fun inp =>
    if inp.hash.length = 32 then some (toHex inp.hash.reverse) else none

/-- The window that a request is judged against: a reveal is judged without its own commit. -/
def windowUsageOf (hours now : ℚ) (p : PreparedRequest) (entries : List WindowEntry) :
    WindowUsage :=
  let usage := snapshot M none (pruned hours now entries)
  if hasRole p.env .reveal then
    (snapshotExcludingTxid M hours now (revealCommitTxid p.psbt) entries).2.getD usage
  else usage

/-- The refusal of the policy. -/
def policyDenial : Refusal → Denial
  | .denied code _ => .denied code
  | .thrown => .thrown

/-- The verdict of the policy; a cancel publishes nothing and is not judged. -/
def evaluateRequest (p : PreparedRequest) (windowUsage : Option WindowUsage) :
    Except Denial (Option Evaluation) :=
  if hasRole p.env .cancel then .ok none
  else
    match evaluatePolicy H M self.policy p.decoded windowUsage with
    | .error refusal => .error (policyDenial refusal)
    | .ok evaluation =>
      if evaluation.needsConfirmation && !self.allowConfirmable then deny "CONFIRMATION_REQUIRED"
      else .ok (some evaluation)

/-- The script that the signed inputs must spend: on a reveal or a cancel the commit's. -/
def expectedScript (env : Option Envelope) : Option Bytes :=
  match env with
  | some env => if env.role = .commit then none else some env.commit.output
  | none => none

/-- Input 0 is signed, and spends the expected script. -/
def checkSource (psbt : Psbt) (signed : List ℕ) (expected : Option Bytes) : Except Denial Unit :=
  if !signed.contains 0 then deny "SOURCE_NOT_OUR_ACCOUNT"
  else
    match prevoutScript psbt 0 with
    | none => deny "SOURCE_NOT_OUR_ACCOUNT"
    | some script =>
      if script = expected.getD self.accountScript then .ok () else deny "SOURCE_NOT_OUR_ACCOUNT"

/-- `SIGHASH_DEFAULT`, or nothing said. -/
def sighashAllowed : Js → Bool
  | .undefined => true
  | .num (.fin q) => q == 0
  | _ => false

/-- The gates on the whole transaction. -/
def checkTransaction (p : PreparedRequest) (sighashType : Js) : Except Denial Unit := do
  checkPrevouts self p.psbt p.seenIdx (expectedScript p.env)
  checkSource self p.psbt p.seenIdx (expectedScript p.env)
  let _ ← checkOutputs self p.psbt (p.seenIdx.headD 0) p.env
  checkFee self p.psbt
  if sighashAllowed sighashType then .ok () else deny "SIGHASH_TYPE_NOT_ALLOWED"

/-- The message of one input, from the transaction. -/
def sighashOf (B : Bitcoin) (p : PreparedRequest) (i : ℕ) : Option Bytes := do
  let prevouts ← p.psbt.txInputs.mapM PsbtInput.witnessUtxo
  B.hashForWitnessV1 p.psbt.transaction i prevouts (match p.env with
    | some env => if env.role = .reveal then some env.commit.leafHash else none
    | none => none)

/-- One partial signature. -/
def signInput (p : PreparedRequest) (it : Js × ℕ) : Except Denial PartialSignature :=
  match sighashOf B p it.2 with
  | none => deny "CANNOT_DERIVE_SIGHASH"
  | some msg =>
    match it.1.field "agentPublicNonce" with
    | .str nonce =>
      match B.deterministicSign (hexDecode nonce) (envelopeRoundTweaks p.env self.tweaks) msg with
      | some (publicNonce, sig) => .ok ⟨it.2, publicNonce, sig, msg⟩
      | none => deny "SIGN_FAILED"
    | _ => deny "SIGN_FAILED"

/-- A partial signature for each requested input. -/
def signInputs (p : PreparedRequest) : Except Denial (List PartialSignature) :=
  (p.inputs.zip p.seenIdx).mapM (signInput self p)

/-- What is charged: a text, or nothing. -/
def chargeOf (psbt : Psbt) (e : Evaluation) : Charge :=
  ⟨e.action, e.tick.str?, e.amount.str?, B.getId psbt⟩

/-- Everything between the window's snapshot and its charge. -/
def authorize (req : Request) (p : PreparedRequest) (windowUsage : Option WindowUsage) :
    Except Denial (Approval × Option Evaluation) := do
  let evaluation ← evaluateRequest H M self p windowUsage
  checkTransaction self p req.sighashType
  let signatures ← signInputs self p
  return (⟨p.decoded.action, signatures, p.env.map Envelope.role⟩, evaluation)

/-- The charge of an approved request: a reveal and a cancel are not charged. -/
def chargeFor (p : PreparedRequest) (evaluation : Option Evaluation) : Option Charge :=
  if p.env.isNone || hasRole p.env .commit then evaluation.map (chargeOf (B := B) p.psbt) else none

/-- A request up to its charge, with the store as reading the window leaves it. -/
def judge (hours now : ℚ) (req : Request) (s : Store) :
    Except Denial (Approval × PreparedRequest × Option Evaluation) × Store :=
  match s.memory with
  | none => (.error .thrown, s)
  | some entries =>
    match prepareRequest D self req with
    | .error d => (.error d, s)
    | .ok p =>
      let s' : Store := { s with memory := some (pruned hours now entries) }
      match authorize H M self req p (some (windowUsageOf M hours now p entries)) with
      | .error d => (.error d, s')
      | .ok (approval, evaluation) => (.ok (approval, p, evaluation), s')

/-- Charges the window; the lock is still ours or not, and the write ends as `outcome` says. -/
def recordBudget (now : ℚ) (owned : Bool) (outcome : WriteOutcome) (charge : Charge) (s : Store) :
    Store × Result :=
  if owned then record M now s (s.memory.getD []) charge outcome else (s, .threw)

/-- One request, with the window store before and after it. -/
def process (hours now : ℚ) (owned : Bool) (outcome : WriteOutcome) (req : Request) (s : Store) :
    Except Denial Approval × Store :=
  match judge H M D self hours now req s with
  | (.error d, s') => (.error d, s')
  | (.ok (approval, p, evaluation), s') =>
    match chargeFor (B := B) p evaluation with
    | none => (.ok approval, s')
    | some charge =>
      match recordBudget M now owned outcome charge s' with
      | (s'', .returned) => (.ok approval, s'')
      | (s'', _) => (.error .thrown, s'')

/-- One request to a co-signer without a window store. -/
def processUnlimited (req : Request) : Except Denial Approval := do
  let p ← prepareRequest D self req
  let (approval, _) ← authorize H M self req p none
  return approval

end Process

end XChainSdk
