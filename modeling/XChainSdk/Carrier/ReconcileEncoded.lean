import XChainSdk.Carrier.ScriptMatching

/-!
# The reconcile gate

Before a key signs a transaction that the encoder wrote, every output, every earlier leg and the fee
are accounted for from the transaction itself and from what the caller asked for.

* `Intent` : the caller's request, as it was submitted.
* `ReconcileDenial` : why a transaction is refused, with the data of the refusal.
* `readInputs`, `reconcileOutput`, `checkPhaseFundingCap`, `reconcileFee` : the parts of the gate.
* `reconcileEncoded` : the gate.
-/

namespace XChainSdk

open Hash

/-- What the caller asked for. -/
structure Intent (Network : Type) where
  network : Network
  customOutputs : Js := .null
  changeAddresses : Js := .null
  callerIdentities : Js := .null
  maxFeeSats : Js := .null
  phaseShapes : List PhaseShape := []
  /-- the prevouts of the companion transaction; `none` when there is none -/
  phaseSpends : Option (List Prevout) := none
  requiredSpends : List Prevout := []
  maxPhaseFundingSats : Js := .null

/-- Why the encoder's transaction does not reconcile. -/
inductive ReconcileDenial where
  | unreconcilablePsbt (detail : String)
  | inconsistentPrevout (detail : String)
  | noSignerOwnedInput
  | phaseFundingUnspent (leg : Prevout)
  | opReturnCarriesValue (index : ℕ) (value : ℤ)
  | outputOverRequestedValue (index : ℕ) (value total requested : ℤ)
  | unreconciledOutput (index : ℕ) (value : ℤ) (script : Bytes)
  | malformedPhaseFundingCap (maxPhaseFundingSats : Js)
  | phaseFundingOverCap (total : ℤ) (legs maxPhaseFundingSats : ℕ)
  | negativeFee (totalIn totalOut : ℤ)
  | fullBurnFee (totalIn : ℤ)
  | malformedFeeCap (maxFeeSats : Js)
  | feeOverCap (fee : ℤ) (maxFeeSats : ℕ)

/-- The code of the error. -/
def ReconcileDenial.code : ReconcileDenial → String
  | unreconcilablePsbt _ => "UNRECONCILABLE_PSBT"
  | inconsistentPrevout _ => "INCONSISTENT_PREVOUT"
  | noSignerOwnedInput => "NO_SIGNER_OWNED_INPUT"
  | phaseFundingUnspent _ => "PHASE_FUNDING_UNSPENT"
  | opReturnCarriesValue _ _ => "OP_RETURN_CARRIES_VALUE"
  | outputOverRequestedValue .. => "OUTPUT_OVER_REQUESTED_VALUE"
  | unreconciledOutput .. => "UNRECONCILED_OUTPUT"
  | malformedPhaseFundingCap _ => "MALFORMED_PHASE_FUNDING_CAP"
  | phaseFundingOverCap .. => "PHASE_FUNDING_OVER_CAP"
  | negativeFee _ _ => "NEGATIVE_FEE"
  | fullBurnFee _ => "FULL_BURN_FEE"
  | malformedFeeCap _ => "MALFORMED_FEE_CAP"
  | feeOverCap _ _ => "FEE_OVER_CAP"

variable {Network : Type} (L : BitcoinJs Network) (intent : Intent Network)

/-! ### Inputs -/

/-- What the loop over the inputs has read. -/
structure EncoderInputs where
  fundingScripts : List Bytes := []
  unsignedInputs : ℕ := 0
  spent : List Prevout := []
  totalIn : ℤ := 0
  feeComputable : Bool := true

/-- The key that finalizes this unsigned input alone controls its script. -/
def fundsAlone (inp : EncodedInput) (script : Bytes) : Bool :=
  singleKeyInput L inp script ||
    (callerNestedScripts L intent.callerIdentities intent.network).contains script

/-- One input. -/
def readInput (s : EncoderInputs) (e : EncodedInput × ℕ) : Except ReconcileDenial EncoderInputs :=
  let (inp, i) := e
  match findInputPrevout L inp with
  | .error detail => .error (.inconsistentPrevout ("input " ++ toString i ++ ": " ++ detail))
  | .ok _ =>
    match inputScript L inp with
    | none => .error (.unreconcilablePsbt ("input " ++ toString i ++ " carries no witnessUtxo " ++
        "or nonWitnessUtxo, so its funding script cannot be established"))
    | some script =>
      let unsigned := !inputPresigned inp
      let value := inputValue L inp
      .ok {
        fundingScripts :=
          if unsigned && fundsAlone L intent inp script then s.fundingScripts ++ [script]
          else s.fundingScripts
        unsignedInputs := if unsigned then s.unsignedInputs + 1 else s.unsignedInputs
        spent := s.spent ++ [⟨script, value⟩]
        totalIn := s.totalIn + value.getD 0
        feeComputable := s.feeComputable && value.isSome }

/-- The inputs, with the scripts that change may return to. -/
def readInputs (psbt : EncodedPsbt) : Except ReconcileDenial EncoderInputs := do
  let inputs ← psbt.txInputs.zipIdx.foldlM (readInput L intent) {}
  if psbt.txInputs.isEmpty then
    .error (.unreconcilablePsbt "the encoder returned a transaction with no inputs")
  else if inputs.unsignedInputs = 0 then .error .noSignerOwnedInput
  else return inputs

/-- A leg that an earlier phase funded is spent back. -/
def checkRequiredSpend (spent : Pool Prevout) (leg : Prevout) :
    Except ReconcileDenial (Pool Prevout) :=
  match takeMatch spent leg.script leg.value with
  | none => .error (.phaseFundingUnspent leg)
  | some spent => .ok spent

/-- Every leg that an earlier phase funded is spent back, each by an input of its own. -/
def checkRequiredSpends (spent : List Prevout) : Except ReconcileDenial Unit := do
  let _ ← intent.requiredSpends.foldlM checkRequiredSpend (Pool.ofList spent)
  return ()

/-! ### What the caller authorized -/

/-- An authorized destination: its cap, and what it was paid. -/
structure Authorized where
  maxValue : ℤ
  spent : ℤ

/-- The script that a submitted output asks to pay. -/
def requestedScript (out : Js) : Option Bytes :=
  if !out.truthy || (out.field "address").isNullish then none
  else scriptForAddress L (out.field "address") intent.network

/-- The amount that a submitted output asks for; one that cannot be read authorizes nothing. -/
def requestedValue (out : Js) : ℤ := ((exactU64 (out.field "value")).map Nat.cast).getD 0

/-- Adds a submitted output; outputs to one script share one cap. -/
def authorizeOutput (authorized : Dict Bytes Authorized) (out : Js) : Dict Bytes Authorized :=
  match requestedScript L intent out with
  | none => authorized
  | some script =>
    match authorized.get? script with
    | some existing =>
      authorized.set script { existing with maxValue := existing.maxValue + requestedValue out }
    | none => authorized.set script ⟨requestedValue out, 0⟩

/-- The submitted destinations. -/
def readAuthorizedOutputs : Dict Bytes Authorized :=
  intent.customOutputs.elems.foldl (authorizeOutput L intent) Dict.empty

/-- The submitted change addresses and the caller's own scripts. -/
def readChangeScripts : List Bytes :=
  (intent.changeAddresses.asList.filterMap fun addr =>
      if addr.isNullish then none else scriptForAddress L addr intent.network) ++
    intent.callerIdentities.asList.flatMap fun id => callerScripts L id intent.network

/-! ### Outputs -/

/-- What the loop over the outputs has accounted for. -/
structure EncoderOutputs where
  authorized : Dict Bytes Authorized
  totalOut : ℤ := 0
  phaseSpends : Option (Pool Prevout)
  phaseFunding : List Prevout := []
  phaseFundingTotal : ℤ := 0

/-- An output that the caller asked for, capped at what it asked for. -/
def payAuthorized (s : EncoderOutputs) (i : ℕ) (script : Bytes) (value : ℤ) (entry : Authorized) :
    Except ReconcileDenial EncoderOutputs :=
  let spent := entry.spent + value
  if entry.maxValue < spent then
    .error (.outputOverRequestedValue i value spent entry.maxValue)
  else .ok { s with authorized := s.authorized.set script { entry with spent } }

/-- A leg that funds a later phase; where the companion transaction is known, it spends the leg. -/
def fundPhase (s : EncoderOutputs) (script : Bytes) (value : ℤ) :
    Except ReconcileDenial EncoderOutputs :=
  let leg : Prevout := ⟨script, some value⟩
  let funded (phaseSpends : Option (Pool Prevout)) : EncoderOutputs :=
    { s with
      phaseSpends
      phaseFunding := s.phaseFunding ++ [leg]
      phaseFundingTotal := s.phaseFundingTotal + value }
  match s.phaseSpends with
  | none => .ok (funded none)
  | some pool =>
    match takeMatch pool script (some value) with
    | none => .error (.phaseFundingUnspent leg)
    | some pool => .ok (funded (some pool))

/-- One output: a data carrier, change, a submitted destination or a funding leg. -/
def reconcileOutput (ownScripts : List Bytes) (s : EncoderOutputs) (e : TxOut × ℕ) :
    Except ReconcileDenial EncoderOutputs :=
  let (out, i) := e
  match toU64 (narrowU64 out.value) with
  | none => .error (.unreconcilablePsbt ("output " ++ toString i ++ " has a non-integer value"))
  | some value =>
    let s := { s with totalOut := s.totalOut + value }
    if isOpReturn L out.script then
      if 0 < value then .error (.opReturnCarriesValue i value) else .ok s
    else if ownScripts.contains out.script then .ok s
    else
      match s.authorized.get? out.script with
      | some entry => payAuthorized s i out.script value entry
      | none =>
        if matchesPhaseShape L out.script intent.phaseShapes then fundPhase s out.script value
        else .error (.unreconciledOutput i value out.script)

/-- The outputs, in the order of the transaction. -/
def reconcileOutputs (psbt : EncodedPsbt) (ownScripts : List Bytes) :
    Except ReconcileDenial EncoderOutputs :=
  psbt.txOutputs.zipIdx.foldlM (reconcileOutput L intent ownScripts)
    { authorized := readAuthorizedOutputs L intent
      phaseSpends := intent.phaseSpends.map Pool.ofList }

/-- The cap on the funding legs; a cap that cannot be read is refused. -/
def checkPhaseFundingCap (outputs : EncoderOutputs) : Except ReconcileDenial Unit :=
  if intent.maxPhaseFundingSats.isNullish then .ok ()
  else
    match exactU64 intent.maxPhaseFundingSats with
    | none => .error (.malformedPhaseFundingCap intent.maxPhaseFundingSats)
    | some cap =>
      if (cap : ℤ) < outputs.phaseFundingTotal then
        .error (.phaseFundingOverCap outputs.phaseFundingTotal outputs.phaseFunding.length cap)
      else .ok ()

/-! ### Fee -/

/-- What the gate answers. -/
structure Reconciliation where
  fee : Option ℤ
  totalIn : Option ℤ
  totalOut : ℤ
  phaseFunding : List Prevout

/-- The cap on the fee; a cap that cannot be read is refused. -/
def checkFeeCap (fee : ℤ) : Except ReconcileDenial Unit :=
  if intent.maxFeeSats.isNullish then .ok ()
  else
    match exactU64 intent.maxFeeSats with
    | none => .error (.malformedFeeCap intent.maxFeeSats)
    | some cap => if (cap : ℤ) < fee then .error (.feeOverCap fee cap) else .ok ()

/-- The fee is within bounds. -/
def reconcileFee (inputs : EncoderInputs) (outputs : EncoderOutputs) :
    Except ReconcileDenial Reconciliation :=
  if !inputs.feeComputable then .ok ⟨none, none, outputs.totalOut, outputs.phaseFunding⟩
  else if inputs.totalIn < outputs.totalOut then
    .error (.negativeFee inputs.totalIn outputs.totalOut)
  else if 0 < inputs.totalIn ∧ outputs.totalOut = 0 then .error (.fullBurnFee inputs.totalIn)
  else do
    let fee := inputs.totalIn - outputs.totalOut
    checkFeeCap intent fee
    return ⟨some fee, some inputs.totalIn, outputs.totalOut, outputs.phaseFunding⟩

/-- The gate. -/
def reconcileEncoded (psbtHex : String) : Except ReconcileDenial Reconciliation :=
  match L.encodedFromHex psbtHex with
  | none => .error (.unreconcilablePsbt "the encoder response is not a decodable PSBT")
  | some psbt => do
    let inputs ← readInputs L intent psbt
    checkRequiredSpends intent inputs.spent
    let ownScripts := inputs.fundingScripts ++ readChangeScripts L intent
    let outputs ← reconcileOutputs L intent psbt ownScripts
    checkPhaseFundingCap intent outputs
    reconcileFee intent inputs outputs

end XChainSdk
