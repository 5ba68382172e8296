import XChainSdk.Cosigner.OutputPolicy
import XChainSdk.Lib.Pool

/-!
# Scripts and prevouts of an encoder's transaction

The encoder is remote: which inputs a transaction has and whom its outputs pay is its choice, so
scripts and amounts are read the way the key signs them.

* `EncodedPsbt` : a transaction with everything it says about its inputs.
* `BitcoinJs` : what the gate uses of the Bitcoin library, next to `Bitcoin`.
* `findInputPrevout` : the output that an input spends; data that disagree are refused.
* `singleKeyInput`, `matchesPhaseShape`, `callerScripts` : the scripts that are told apart.
-/

namespace XChainSdk

open Hash

/-- An input, with everything the transaction says about it. -/
structure EncodedInput where
  hash : Bytes
  index : ℕ
  nonWitnessUtxo : Option Bytes := none
  witnessUtxo : Option TxOut := none
  redeemScript : Option Bytes := none
  finalScriptSig : Option Bytes := none
  finalScriptWitness : Option Bytes := none
  partialSig : List Bytes := []
  tapScriptSig : List Bytes := []
  tapKeySig : Option Bytes := none

/-- The encoder's answer. -/
structure EncodedPsbt where
  txInputs : List EncodedInput
  txOutputs : List TxOut

/-- A transaction that an input refers to. -/
structure PrevTx where
  hash : Bytes
  outs : List TxOut

/-- More of the Bitcoin library.  Failures are thrown errors. -/
structure BitcoinJs (Network : Type) extends Bitcoin where
  /-- `Psbt.fromHex`, with all the data of its inputs -/
  encodedFromHex : String → Option EncodedPsbt
  /-- `Transaction.fromBuffer`, with `getHash` -/
  transactionFromBuffer : Bytes → Option PrevTx
  /-- `payments.p2pkh({ output })` and `payments.p2wpkh({ output })` accept -/
  isP2pkh : Bytes → Bool
  isP2wpkh : Bytes → Bool
  /-- `payments.p2sh({ output, redeem: payments.p2wpkh({ output: redeem }) })` accepts -/
  isP2shP2wpkh : Bytes → Option Bytes → Bool
  /-- `address.toOutputScript` -/
  toOutputScript : String → Network → Option Bytes
  /-- the output of a public key's payment -/
  p2pkh : Bytes → Network → Option Bytes
  p2wpkh : Bytes → Network → Option Bytes
  p2shP2wpkh : Bytes → Network → Option Bytes
  /-- `network && network.supportsSegwit === false` -/
  segwitless : Network → Bool

variable {Network : Type} (L : BitcoinJs Network)

/-! ### Inputs -/

/-- The output that an input spends.  The previous transaction is the one whose hash the input
names, and a bare output may only repeat it. -/
def findInputPrevout (inp : EncodedInput) : Except String (Option TxOut) :=
  match inp.nonWitnessUtxo with
  | none => .ok inp.witnessUtxo
  | some raw =>
    match L.transactionFromBuffer raw with
    | none => .error "nonWitnessUtxo does not parse"
    | some prevTx =>
      if prevTx.hash ≠ inp.hash then
        .error "nonWitnessUtxo hash does not match the input prevout txid"
      else
        match prevTx.outs[inp.index]? with
        | none => .error ("nonWitnessUtxo has no output " ++ toString inp.index)
        | some out =>
          if inp.witnessUtxo.any (fun utxo => decide (utxo ≠ out)) then
            .error "witnessUtxo disagrees with the nonWitnessUtxo prevout it claims to describe"
          else .ok (some out)

/-- The prevout, when it can be trusted. -/
def verifiedPrevoutOrNull (inp : EncodedInput) : Option TxOut :=
  match findInputPrevout L inp with
  | .ok prevout => prevout
  | .error _ => none

/-- The script that an input spends. -/
def inputScript (inp : EncodedInput) : Option Bytes :=
  (verifiedPrevoutOrNull L inp).map TxOut.script

/-- The value that an input brings in. -/
def inputValue (inp : EncodedInput) : Option ℤ :=
  (verifiedPrevoutOrNull L inp).bind fun out => toU64 (narrowU64 out.value)

/-- Another party signed this input already. -/
def inputPresigned (inp : EncodedInput) : Bool :=
  inp.finalScriptSig.isSome || inp.finalScriptWitness.isSome || !inp.partialSig.isEmpty ||
    !inp.tapScriptSig.isEmpty || inp.tapKeySig.isSome

/-- The templates that one key alone controls. -/
def singleKeyInput (inp : EncodedInput) (script : Bytes) : Bool :=
  L.isP2pkh script || L.isP2wpkh script || L.isP2shP2wpkh script inp.redeemScript

/-! ### Outputs -/

/-- The script starts with `OP_RETURN`. -/
def isOpReturn (script : Bytes) : Bool := isDataCarrier L.toBitcoin script

/-- The shapes of the scripts that fund a later phase. -/
inductive PhaseShape where
  | p2sh
  | p2wsh
  | p2tr
  deriving DecidableEq

/-- The elements of a script have the shape. -/
def PHASE_SHAPES : PhaseShape → List Chunk → Bool
  | .p2sh, [c0, c1, c2] => c0 = .op OP_HASH160 && c1.isPush [20] && c2 = .op OP_EQUAL
  | .p2wsh, [c0, c1] => c0 = .op OP_0 && c1.isPush [32]
  | .p2tr, [c0, c1] => c0 = .op OP_1 && c1.isPush [32]
  | _, _ => false

/-- The script has one of the shapes. -/
def matchesPhaseShape (script : Bytes) (shapes : List PhaseShape) : Bool :=
  match L.decompile script with
  | none => false
  | some decompiled => shapes.any fun name => PHASE_SHAPES name decompiled

/-- A script and a value; `none` is `null`. -/
structure Prevout where
  script : Bytes
  value : Option ℤ
  deriving DecidableEq

/-- Takes one match out of a list of prevouts, so that equal legs need as many equal spends. -/
def takeMatch (pool : Pool Prevout) (script : Bytes) (value : Option ℤ) : Option (Pool Prevout) :=
  Pool.take? ⟨script, value⟩ pool

/-! ### The caller's scripts -/

/-- `Array.isArray(x) ? x : [x]`. -/
def Js.asList : Js → List Js
  | .arr xs => xs
  | x => [x]

/-- `/[0-9a-fA-F]/`. -/
def isHexChar (c : Char) : Bool := (unhex c).isSome

/-- `/^0[23][0-9a-fA-F]{64}$/`. -/
def isCompressedKey (s : String) : Bool :=
  match s.toList with
  | '0' :: c :: cs => (c = '2' || c = '3') && cs.length = 64 && cs.all isHexChar
  | _ => false

/-- `/^(0[23][0-9a-fA-F]{64}|04[0-9a-fA-F]{128})$/`. -/
def isPublicKey (s : String) : Bool :=
  isCompressedKey s ||
    match s.toList with
    | '0' :: '4' :: cs => cs.length = 128 && cs.all isHexChar
    | _ => false

/-- The script of a submitted address; an address that the network cannot parse has none. -/
def scriptForAddress (address : Js) (network : Network) : Option Bytes :=
  L.toOutputScript address.toText network

/-- The scripts of the caller's own identity, an address or a public key.  On a network without
witness programs only the one that does not use them. -/
def callerScripts (identity : Js) (network : Network) : List Bytes :=
  match identity with
  | .str s =>
    if s = "" then []
    else
      match scriptForAddress L identity network with
      | some direct => [direct]
      | none =>
        if isPublicKey s then
          let builds := if L.segwitless network then [L.p2pkh] else [L.p2wpkh, L.p2pkh]
          builds.filterMap fun build => build (hexDecode s) network
        else []
  | _ => []

/-- The nested witness scripts of the caller's public keys. -/
def callerNestedScripts (identities : Js) (network : Network) : List Bytes :=
  if L.segwitless network then []
  else identities.asList.filterMap fun id =>
    match id with
    | .str s => if isCompressedKey s then L.p2shP2wpkh (hexDecode s) network else none
    | _ => none

end XChainSdk
