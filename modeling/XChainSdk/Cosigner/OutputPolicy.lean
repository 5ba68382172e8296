import XChainSdk.Cosigner.Transaction
import XChainSdk.Cosigner.EvaluatePolicy
import XChainSdk.Lib.Checks

/-!
# The output, fee and prevout gates

The action string does not say where the native coin goes, so the co-signer judges every output of
the transaction, its fee and the outputs that its inputs spend.

* `AllowedOutput` : an operator's entry; its script is a standard payment by construction.
* `CoSigner` : the configuration of a co-signer.
* `checkOutputs`, `checkFee`, `checkPrevouts` : the gates; a denial is its reason.
-/

namespace XChainSdk

open Hash

/-- An exact amount from a configuration value. -/
def exactU64 : Js → Option ℕ
  | .bigint z => if 0 ≤ z then some z.toNat else none
  | .num x => x.safeNat?
  | .str s =>
    let cs := trimChars s.toList
    if cs != [] && cs.all Char.isDigit then some (digitsValue cs) else none
  | _ => none

/-- Pushed bytes of one of these lengths. -/
def Chunk.isPush (lengths : List ℕ) : Chunk → Bool
  | .push bytes => lengths.contains bytes.length
  | .op _ => false

/-- The five standard payments to one recipient, by the shape of the script. -/
def isStandardPaymentScript (B : Bitcoin) (script : Bytes) : Bool :=
  match B.decompile script with
  | some [c0, c1, c2, c3, c4] =>
    c0 = .op OP_DUP && c1 = .op OP_HASH160 && c2.isPush [20] && c3 = .op OP_EQUALVERIFY &&
      c4 = .op OP_CHECKSIG
  | some [c0, c1, c2] => c0 = .op OP_HASH160 && c1.isPush [20] && c2 = .op OP_EQUAL
  | some [c0, c1] => c0 = .op OP_0 && c1.isPush [20, 32] || c0 = .op OP_1 && c1.isPush [32]
  | _ => false

/-- An output that the operator authorizes, up to an amount for each transaction. -/
structure AllowedOutput (B : Bitcoin) where
  script : Bytes
  maxValue : ℕ
  standard : isStandardPaymentScript B script = true

/-- One entry of the operator's list; a bad one is a thrown error. -/
def normalizeAllowedOutput (B : Bitcoin) (script : Bytes) (maxValue : Js) :
    Option (AllowedOutput B) :=
  if h : isStandardPaymentScript B script = true then
    if maxValue.isNullish then none
    else (exactU64 maxValue).map fun maxValue => ⟨script, maxValue, h⟩
  else none

/-- A co-signer, as it is configured. -/
structure CoSigner (B : Bitcoin) where
  policy : Policy
  allowConfirmable : Bool
  allowedOutputs : List (AllowedOutput B)
  maxFeeSats : Option ℕ
  maxCosignInputs : ℕ
  accountScript : Bytes
  internalXOnly : Bytes
  tweaks : List Bytes
  recoveryLeaves : Option (Bytes × Bytes)

/-- Why a request is not approved. -/
inductive Denial where
  | denied (reason : String)
  | thrown
  deriving DecidableEq

/-- A denial. -/
def deny {α : Type} (reason : String) : Except Denial α := .error (.denied reason)

/-- What an envelope request asks for. -/
inductive EnvelopeRole where
  | commit
  | reveal
  | cancel
  deriving DecidableEq

/-- What the daemon derives from an envelope script. -/
structure EnvelopeCommit where
  output : Bytes
  tweak : Bytes
  leafHash : Bytes
  script : Bytes
  payload : Bytes

/-- The envelope of a request. -/
structure Envelope where
  commit : EnvelopeCommit
  role : EnvelopeRole

/-! ### Outputs -/

section Gates

variable {B : Bitcoin} (self : CoSigner B)

/-- The script starts with `OP_RETURN`. -/
def isDataCarrier (B : Bitcoin) (script : Bytes) : Bool :=
  match B.decompile script with
  | some (c :: _) => c = .op OP_RETURN
  | _ => false

/-- A data carrier: without value, and on an envelope not at all. -/
def inspectDataCarrier (out : TxOut) (env : Option Envelope) : Except Denial Unit :=
  if env.isSome then deny "ENVELOPE_MIXED_CARRIER"
  else if (JsNum.fin 0).lt (narrowU64 out.value).toNumber then deny "OP_RETURN_CARRIES_VALUE"
  else .ok ()

/-- An amount as an exact integer. -/
def toU64 : Js → Option ℤ
  | .bigint z => some z
  | .num (.fin q) => if q.den = 1 ∧ 0 ≤ q then some q.num else none
  | _ => none

/-- The loop over the outputs: totals by entry of the list, and commit outputs. -/
structure OutputScan where
  spent : Dict ℕ ℤ
  commitOutputsSeen : ℕ

/-- Total of one entry. -/
def OutputScan.spentAt (s : OutputScan) (i : ℕ) : ℤ := (s.spent.get? i).getD 0

/-- The one commit output of an envelope. -/
def checkEnvelopeCommitOutput (out : TxOut) (s : OutputScan) : Except Denial OutputScan :=
  if 0 < s.commitOutputsSeen then deny "UNAUTHORIZED_OUTPUT"
  else
    match self.maxFeeSats, toU64 (narrowU64 out.value) with
    | none, _ => deny "ENVELOPE_COMMIT_UNBOUNDED"
    | some _, none => deny "OUTPUT_OVER_CAP"
    | some maxFeeSats, some value =>
      if (maxFeeSats : ℤ) < value then deny "OUTPUT_OVER_CAP"
      else .ok { s with commitOutputsSeen := s.commitOutputsSeen + 1 }

/-- An output that the operator authorized: the total of its entry is bounded. -/
def checkAllowedOutput (out : TxOut) (i : ℕ) (maxValue : ℕ) (s : OutputScan) :
    Except Denial OutputScan :=
  match toU64 (narrowU64 out.value) with
  | none => deny "OUTPUT_OVER_CAP"
  | some value =>
    let total := s.spentAt i + value
    if (maxValue : ℤ) < total then deny "OUTPUT_OVER_CAP"
    else .ok { s with spent := s.spent.set i total }

/-- The first entry that authorizes a script, with its place in the list. -/
def matchAllowed (script : Bytes) : Option (AllowedOutput B × ℕ) :=
  self.allowedOutputs.zipIdx.find? fun e => decide (e.1.script = script)

/-- The request funds its envelope with this output. -/
def isCommitOutput (env : Option Envelope) (script : Bytes) : Bool :=
  match env with
  | some env => decide (env.role = .commit) && decide (script = env.commit.output)
  | none => false

/-- One output. -/
def checkOutput (env : Option Envelope) (accountScript : Bytes) (s : OutputScan) (out : TxOut) :
    Except Denial OutputScan :=
  if isDataCarrier B out.script then do
    inspectDataCarrier out env
    return s
  else if out.script = accountScript then .ok s
  else if isCommitOutput env out.script then checkEnvelopeCommitOutput self out s
  else
    match matchAllowed self out.script with
    | some (entry, i) => checkAllowedOutput out i entry.maxValue s
    | none => deny "UNAUTHORIZED_OUTPUT"

/-- The script of the output that an input spends. -/
def prevoutScript (psbt : Psbt) (idx : ℕ) : Option Bytes :=
  psbt.txInputs[idx]?.bind fun inp => inp.witnessUtxo.map TxOut.script

/-- Every output is a data carrier, change, the commit output or authorized. -/
def checkOutputs (psbt : Psbt) (idx : ℕ) (env : Option Envelope) : Except Denial OutputScan :=
  match prevoutScript psbt idx with
  | none => deny "CANNOT_CHECK_OUTPUTS"
  | some script =>
    let accountScript := if env.isSome then self.accountScript else script
    psbt.txOutputs.foldlM (checkOutput self env accountScript) ⟨Dict.empty, 0⟩

/-! ### Fee and prevouts -/

/-- Adds the value that an input spends. -/
def addInputValue (total : ℤ) (inp : PsbtInput) : Except Denial ℤ :=
  match inp.witnessUtxo.bind fun utxo => toU64 (narrowU64 utxo.value) with
  | none => deny "CANNOT_CHECK_FEE"
  | some v => .ok (total + v)

/-- Adds the value of an output. -/
def addOutputValue (total : ℤ) (out : TxOut) : Except Denial ℤ :=
  match toU64 (narrowU64 out.value) with
  | none => deny "CANNOT_CHECK_FEE"
  | some v => .ok (total + v)

/-- The fee is within bounds. -/
def checkFee (psbt : Psbt) : Except Denial Unit := do
  let totalIn ← psbt.txInputs.foldlM addInputValue 0
  let totalOut ← psbt.txOutputs.foldlM addOutputValue 0
  let fee := totalIn - totalOut
  if fee < 0 then deny "OUTPUTS_EXCEED_INPUTS"
  else if 0 < totalIn ∧ totalOut = 0 then deny "FEE_BURNS_ENTIRE_INPUT"
  else if (self.maxFeeSats.map fun m => decide ((m : ℤ) < fee)).getD false then
    deny "FEE_EXCEEDS_CAP"
  else .ok ()

/-- One input that is to be signed spends the expected script. -/
def checkPrevout (psbt : Psbt) (expected : Bytes) (idx : ℕ) : Except Denial Unit :=
  match prevoutScript psbt idx with
  | none => deny "CANNOT_CHECK_OUTPUTS"
  | some script => if script = expected then .ok () else deny "PREVOUT_NOT_OUR_ACCOUNT"

/-- Every input that is to be signed spends the expected script. -/
def checkPrevouts (psbt : Psbt) (indices : List ℕ) (expectedScript : Option Bytes) :
    Except Denial Unit :=
  indices.forM (checkPrevout psbt (expectedScript.getD self.accountScript))

end Gates

end XChainSdk
