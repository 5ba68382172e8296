import XChainSdk.Js.Value

/-!
# Transactions before they are signed

What the co-signer reads of a partially signed transaction, and what it uses of the Bitcoin library.

* `Psbt`, `TxOut` : inputs with the outputs they spend, and outputs; amounts are 64-bit.
* `UnsignedTx` : the transaction that a sighash is taken of.
* `narrowU64` : the value that an amount has in the source's language.
* `Bitcoin` : the library: scripts, addresses, sighashes and partial signatures.
-/

namespace XChainSdk

open Hash

/-- An output: a script and an amount in satoshis. -/
structure TxOut where
  script : Bytes
  value : UInt64
  deriving DecidableEq

/-- A leaf that an input presents. -/
structure TapLeaf where
  leafVersion : ℕ
  script : Bytes

/-- An input, with the output it spends when the transaction shows it. -/
structure PsbtInput where
  hash : Bytes
  index : ℕ
  sequence : ℕ
  witnessUtxo : Option TxOut
  tapLeafScript : List TapLeaf := []

/-- A partially signed transaction. -/
structure Psbt where
  version : ℕ
  locktime : ℕ
  txInputs : List PsbtInput
  txOutputs : List TxOut

/-- A transaction without its witnesses. -/
structure UnsignedTx where
  version : ℕ
  locktime : ℕ
  ins : List (Bytes × ℕ × ℕ)
  outs : List TxOut
  deriving DecidableEq

/-- `addInput` and `addOutput` of what a partially signed transaction shows. -/
def Psbt.transaction (psbt : Psbt) : UnsignedTx where
  version := psbt.version
  locktime := psbt.locktime
  ins := psbt.txInputs.map fun inp => (inp.hash, inp.index, inp.sequence)
  outs := psbt.txOutputs

/-- One element of a script: an opcode, or pushed bytes. -/
inductive Chunk where
  | op (code : ℕ)
  | push (bytes : Bytes)
  deriving DecidableEq

def OP_0 : ℕ := 0x00
def OP_1 : ℕ := 0x51
def OP_IF : ℕ := 0x63
def OP_ENDIF : ℕ := 0x68
def OP_RETURN : ℕ := 0x6a
def OP_DUP : ℕ := 0x76
def OP_EQUAL : ℕ := 0x87
def OP_EQUALVERIFY : ℕ := 0x88
def OP_HASH160 : ℕ := 0xa9
def OP_CHECKSIG : ℕ := 0xac

/-- `Number.MAX_SAFE_INTEGER`. -/
def MAX_SAFE_INTEGER : ℕ := 2 ^ 53 - 1

/-- An amount: a number when it is exact, a big integer above. -/
def narrowU64 (v : UInt64) : Js :=
  if v.toNat ≤ MAX_SAFE_INTEGER then .num (.fin v.toNat) else .bigint v.toNat

/-- An amount greater than zero is not lost by `Number`. -/
theorem narrowU64_toNumber_pos {v : UInt64} (h : v ≠ 0) :
    (JsNum.fin 0).lt (narrowU64 v).toNumber = true := by
  have hpos : 0 < v.toNat := Nat.pos_of_ne_zero fun h0 => h (UInt64.toNat_inj.1 (by simpa using h0))
  unfold narrowU64
  split_ifs
  · simpa [Js.toNumber, JsNum.lt] using hpos
  · exact toDouble_pos hpos

/-- What a taproot output commits to. -/
structure TapOutput where
  output : Bytes
  merkleRoot : Bytes

/-- The Bitcoin library.  Failures are thrown errors. -/
structure Bitcoin where
  /-- `script.decompile` -/
  decompile : Bytes → Option (List Chunk)
  /-- `Psbt.fromHex` -/
  psbtFromHex : String → Option Psbt
  /-- `Transaction.getId` of the transaction without witnesses -/
  getId : Psbt → Option String
  /-- `payments.p2tr` of an internal key and the leaves of a tree -/
  p2tr : Bytes → List Bytes → Option TapOutput
  /-- `crypto.taggedHash` -/
  taggedHash : String → Bytes → Bytes
  /-- `Transaction.hashForWitnessV1` of an input and the outputs that are spent, with a leaf hash on a
  script path -/
  hashForWitnessV1 : UnsignedTx → ℕ → List TxOut → Option Bytes → Option Bytes
  /-- the deterministic partial signature: other nonce, tweaks and message -/
  deterministicSign : Bytes → List Bytes → Bytes → Option (Bytes × Bytes)

end XChainSdk
