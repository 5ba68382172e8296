import XChainSdk.Carrier.ScriptMatching
import XChainSdk.Cosigner.EnvelopeGrammar

/-!
# Signing the multisig inputs of a coordinator's transaction

The coordinator writes every field of the transaction; the key signs through the Bitcoin library,
which picks the script to sign from those fields by rules of its own.

* `MultisigInput`, `Signer` : an input with all the fields that choose a script, and the library.
* `p2ms` : the keys of a bare multisig script.
* `psbtSignInput` : what the library signs for one input, on its taproot route or its script route.
* `isMultisigInputForKey`, `multisigSigningTargets`, `signMultisigPsbt` : the program.
-/

namespace XChainSdk

open Hash

/-- An input, with the fields that choose how it is signed; no sighash type is `0`. -/
structure MultisigInput extends EncodedInput where
  witnessScript : Option Bytes := none
  sighashType : ℕ := 0
  tapInternalKey : Option Bytes := none
  tapMerkleRoot : Option Bytes := none
  tapLeafScript : List TapLeaf := []
  tapBip32Derivation : List Bytes := []

/-- What signing uses of the Bitcoin library.  Failures are thrown errors. -/
structure Signer (Network : Type) extends BitcoinJs Network where
  /-- `Psbt.fromHex` -/
  multisigFromHex : String → Network → Option (List MultisigInput)
  /-- the public key of `ECPair.fromWIF` -/
  publicKeyOfWIF : String → Network → Option Bytes
  hash160 : Bytes → { h : Bytes // h.length = 20 }
  sha256 : Bytes → Digest
  /-- `payments.p2sh({ redeem: { output } })` and `payments.p2wsh({ redeem: { output } })` accept -/
  p2shWraps : Bytes → Bool
  p2wshWraps : Bytes → Bool
  isPoint : Bytes → Bool
  isXOnlyPoint : Bytes → Bool
  /-- `tapleafHash` -/
  leafHash : TapLeaf → Bytes

/-- What a signature covers. -/
inductive Signature where
  /-- an ECDSA signature over a script, kept in `partialSig` -/
  | ecdsa (script : Bytes)
  /-- a Schnorr signature for the output key, kept in `tapKeySig` -/
  | tapKey
  /-- a Schnorr signature over a leaf, kept in `tapScriptSig` -/
  | tapLeaf (leaf : TapLeaf)

/-! ### Templates -/

/-- `payments.p2sh({ output })` accepts. -/
def isP2SHScript (script : Bytes) : Bool :=
  decide (script.length = 23) && script.take 2 == [0xa9, 0x14] && script.getLast? == some 0x87

/-- `payments.p2wsh({ output })` accepts. -/
def isP2WSHScript (script : Bytes) : Bool :=
  decide (script.length = 34) && script.take 2 == [0x00, 0x20]

/-- `payments.p2wpkh({ output })` accepts. -/
def isP2WPKH (script : Bytes) : Bool :=
  decide (script.length = 22) && script.take 2 == [0x00, 0x14]

variable {Network : Type} (L : Signer Network)

/-- `payments.p2tr({ output })` accepts. -/
def isP2TR (script : Bytes) : Bool :=
  decide (script.length = 34) && script.take 2 == [0x51, 0x20] && L.isXOnlyPoint (script.drop 2)

/-- `payments.p2sh({ redeem: { output } }).output` -/
def p2shOutput (redeem : Bytes) : Option Bytes :=
  if L.p2shWraps redeem then some ([0xa9, 0x14] ++ (L.hash160 redeem).val ++ [0x87]) else none

/-- `payments.p2wsh({ redeem: { output } }).output` -/
def p2wshOutput (witness : Bytes) : Option Bytes :=
  if L.p2wshWraps witness then some ([0x00, 0x20] ++ (L.sha256 witness).bytes) else none

/-- `payments.p2ms({ output }).pubkeys`: `m` keys out of `n`, in the elements of the script. -/
def p2msChunks : List Chunk → Option (List Bytes)
  | .op m :: rest =>
    match rest.reverse with
    | .op last :: .op n :: keys =>
      if last = OP_CHECKMULTISIG ∧ OP_RESERVED < m ∧ n ≤ OP_RESERVED + 16 ∧ m ≤ n ∧
          n = OP_RESERVED + keys.length ∧ keys.all (fun c => c.push?.any L.isPoint) then
        some (keys.reverse.filterMap Chunk.push?)
      else none
    | _ => none
  | _ => none

def p2ms (output : Bytes) : Option (List Bytes) := (Script.decompile output).bind (p2msChunks L)

/-! ### What the library signs -/

/-- The kinds of script that `getMeaningfulScript` tells apart. -/
inductive ScriptType where
  | p2shP2wsh
  | p2wsh
  | p2sh
  | raw
  deriving DecidableEq

/-- `checkInvalidP2WSH` -/
def invalidP2WSH (script : Bytes) : Bool := isP2WPKH script || isP2SHScript script

/-- `getMeaningfulScript`: the script that is signed for an output, which the fields must match. -/
def getMeaningfulScript (spent : Bytes) (inp : MultisigInput) : Option (Bytes × ScriptType) :=
  if isP2SHScript spent then
    match inp.redeemScript with
    | none => none
    | some redeem =>
      if isP2WSHScript redeem then
        match inp.witnessScript with
        | none => none
        | some witness =>
          if p2shOutput L redeem = some spent ∧ p2wshOutput L witness = some redeem ∧
              invalidP2WSH witness = false then
            some (witness, .p2shP2wsh)
          else none
      else if p2shOutput L redeem = some spent then some (redeem, .p2sh)
      else none
  else if isP2WSHScript spent then
    match inp.witnessScript with
    | none => none
    | some witness =>
      if p2wshOutput L witness = some spent ∧ invalidP2WSH witness = false then
        some (witness, .p2wsh)
      else none
  else some (spent, .raw)

/-- The prevout of a signature: the previous transaction's output whenever it is there. -/
def signedPrevout (inp : MultisigInput) : Option TxOut :=
  match inp.nonWitnessUtxo with
  | none => inp.witnessUtxo
  | some raw =>
    (L.transactionFromBuffer raw).bind fun prevTx =>
      if prevTx.hash = inp.hash then prevTx.outs[inp.index]? else none

/-- `toXOnly` -/
def toXOnly (pubkey : Bytes) : Bytes :=
  if pubkey.length = 32 then pubkey else (pubkey.drop 1).take 32

/-- `pubkeyInScript`; a script that cannot be read throws. -/
def pubkeyInScript (pubkey script : Bytes) : Option Bool :=
  (Script.decompile script).map fun decompiled => decompiled.any fun element =>
    element.push?.any fun bytes =>
      bytes = pubkey || bytes = (L.hash160 pubkey).val || bytes = toXOnly pubkey

/-- `getHashForSig`: the script that the hash covers and the script that must hold the key. -/
def getHashForSig (inp : MultisigInput) : Option (Bytes × Bytes) :=
  if inp.sighashType ≠ 0 ∧ inp.sighashType ≠ 1 then none
  else
    (signedPrevout L inp).bind fun prevout =>
      match getMeaningfulScript L prevout.script inp with
      | none => none
      | some (meaningful, .p2shP2wsh) | some (meaningful, .p2wsh) => some (meaningful, meaningful)
      | some (meaningful, _) =>
        if isP2WPKH meaningful then
          some ([0x76, 0xa9, 0x14] ++ meaningful.drop 2 ++ [0x88, 0xac], meaningful)
        -- a signature that does not commit to the value needs the whole previous transaction
        else if inp.nonWitnessUtxo = none then none
        else some (meaningful, meaningful)

/-- The script route of `Psbt.signInput`. -/
def signScriptInput (inp : MultisigInput) (pubkey : Bytes) : Option (List Signature) :=
  (getHashForSig L inp).bind fun (signed, script) =>
    if pubkeyInScript L pubkey script = some true ∧ pubkey ∉ inp.partialSig then
      some [.ecdsa signed]
    else none

/-- `isTaprootInput` -/
def isTaprootInput (inp : MultisigInput) : Bool :=
  inp.tapInternalKey.isSome || inp.tapMerkleRoot.isSome || !inp.tapLeafScript.isEmpty ||
    !inp.tapBip32Derivation.isEmpty || inp.witnessUtxo.any fun utxo => isP2TR L utxo.script

/-- The output key of `getPrevoutTaprootKey`; only the bare output is asked first here. -/
def prevoutTaprootKey (inp : MultisigInput) : Option Bytes :=
  (inp.witnessUtxo.or (signedPrevout L inp)).bind fun prevout =>
    if isP2TR L prevout.script then some (prevout.script.drop 2) else none

/-- The leaves that a Schnorr signature is made for. -/
def signedLeaves (inp : MultisigInput) (pubkey : Bytes) : Option (List TapLeaf) :=
  (inp.tapLeafScript.mapM fun leaf =>
    (pubkeyInScript L pubkey leaf.script).map fun listed => (leaf, listed)).map fun leaves =>
      (leaves.filter Prod.snd).map Prod.fst

/-- An entry's key in `tapScriptSig`. -/
def leafKey (pubkey : Bytes) (leaf : TapLeaf) : Bytes := toXOnly pubkey ++ L.leafHash leaf

/-- The signature for the output key, when it is this key's. -/
def tapKeySignature (inp : MultisigInput) (pubkey : Bytes) : List Signature :=
  if inp.tapInternalKey.isSome ∧ prevoutTaprootKey L inp = some (toXOnly pubkey) then [.tapKey]
  else []

/-- The taproot route of `Psbt.signInput`.  The sighash commits to every prevout, and no entry is
written twice. -/
def signTaprootInput (inputs : List MultisigInput) (inp : MultisigInput) (pubkey : Bytes) :
    Option (List Signature) :=
  if inp.sighashType ≠ 0 ∨
      !inputs.all (fun other => (other.witnessUtxo.or (signedPrevout L other)).isSome) then none
  else
    (signedLeaves L inp pubkey).bind fun leaves =>
      let key := tapKeySignature L inp pubkey
      let keys := leaves.map (leafKey L pubkey)
      if (key = [] ∧ leaves = []) ∨ (key ≠ [] ∧ inp.tapKeySig.isSome) ∨ ¬ keys.Nodup ∨
          keys.any (· ∈ inp.tapScriptSig) then none
      else some (key ++ leaves.map .tapLeaf)

/-- `Psbt.signInput`: the signatures that an input gets.  `made` are those of the earlier calls; a
second signature by the same key is refused. -/
def psbtSignInput (inputs : List MultisigInput) (pubkey : Bytes) (made : List (ℕ × Signature))
    (i : ℕ) : Option (List Signature) :=
  inputs[i]?.bind fun inp =>
    if made.any (fun e => e.1 == i) then none
    else if isTaprootInput L inp then signTaprootInput L inputs inp pubkey
    else signScriptInput L inp pubkey

/-! ### The program -/

/-- `assertConsistentPrevouts` -/
def assertConsistentPrevouts (inputs : List MultisigInput) : Except String Unit :=
  inputs.forM fun inp => (findInputPrevout L.toBitcoinJs inp.toEncodedInput).map fun _ => ()

/-- The input's scripts are those that the output it spends commits to. -/
def scriptsCommitToPrevout (inp : MultisigInput) : Except String Bool := do
  match ← findInputPrevout L.toBitcoinJs inp.toEncodedInput with
  | none => return false
  | some prevout =>
    match inp.witnessScript, inp.redeemScript with
    | some witness, some redeem =>
      return p2wshOutput L witness == some redeem && p2shOutput L redeem == some prevout.script
    | some witness, none => return p2wshOutput L witness == some prevout.script
    | none, some redeem => return p2shOutput L redeem == some prevout.script
    | none, none => return false

/-- The input is a multisig input that lists the key. -/
def isMultisigInputForKey (inp : MultisigInput) (pubkey : Bytes) : Except String Bool :=
  match inp.witnessScript.or inp.redeemScript with
  | none => .ok false
  | some script => do
    if ← scriptsCommitToPrevout L inp then
      match p2ms L script with
      | none => return false
      | some pubkeys => return pubkeys.any (· == pubkey)
    else return false

/-- The index that an entry of `inputIndices` names. -/
def inputIndex? (inputCount : ℕ) : Js → Option ℕ
  | .num (.fin q) =>
    if q.den = 1 ∧ 0 ≤ q.num ∧ q.num < inputCount then some q.num.toNat else none
  | _ => none

/-- The entry of the caller's list, when the input it names may be signed. -/
def checkListed (inputs : List MultisigInput) (pubkey : Bytes) (x : Js) : Except String ℕ :=
  match inputIndex? inputs.length x with
  | none => .error "INVALID_INPUT"
  | some i =>
    match inputs[i]? with
    | none => .error "INVALID_INPUT"
    | some inp => do
      if ← isMultisigInputForKey L inp pubkey then return i
      else throw "SIGN_FAILED"

/-- The inputs that may be signed: the listed ones, or every multisig input for the key. -/
def multisigSigningTargets (inputs : List MultisigInput) (pubkey : Bytes)
    (inputIndices : Option (List Js)) : Except String (List ℕ) :=
  match inputIndices with
  | some [] => .error "SIGN_FAILED"
  | some listed => listed.mapM (checkListed L inputs pubkey)
  | none => do
    let mine ← inputs.mapM fun inp => isMultisigInputForKey L inp pubkey
    let targets := (List.range inputs.length).filter fun i => mine[i]? = some true
    if targets = [] then throw "SIGN_FAILED" else return targets

/-- The loop of `signInput` calls, with the signatures made so far. -/
def signTargets (inputs : List MultisigInput) (pubkey : Bytes) :
    List ℕ → List (ℕ × Signature) → Except String (List (ℕ × Signature))
  | [], made => .ok made
  | i :: targets, made =>
    match psbtSignInput L inputs pubkey made i with
    | none => .error "SIGN_FAILED"
    | some sigs => signTargets inputs pubkey targets (made ++ sigs.map fun sig => (i, sig))

/-- `signMultisigPsbt`: the signatures that the returned transaction has gained. -/
def signMultisigPsbt (net : Network) (psbtHex wif : String) (inputIndices : Option (List Js)) :
    Except String (List (ℕ × Signature)) := do
  if psbtHex = "" then throw "INVALID_PSBT"
  if wif = "" then throw "INVALID_WIF"
  match L.publicKeyOfWIF wif net with
  | none => throw "INVALID_WIF"
  | some pubkey =>
    match L.multisigFromHex psbtHex net with
    | none => throw "INVALID_PSBT"
    | some inputs =>
      assertConsistentPrevouts L inputs
      let targets ← multisigSigningTargets L inputs pubkey inputIndices
      signTargets L inputs pubkey targets []

end XChainSdk
