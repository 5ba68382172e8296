import XChainSdk.Cosigner.OutputPolicy

/-!
# Taproot envelopes

An envelope carries its action in a leaf of a commit output.  The daemon derives the commit from the
leaf script and its own key, and what it is asked to sign from the transaction.

* `parseEnvelopeScript` : the grammar of a leaf script.
* `deriveEnvelopeCommit` : the commit output of an envelope that this account owns.
* `classifyEnvelopeRole` : whether a transaction funds, reveals or cancels it.
-/

namespace XChainSdk

open Hash

/-- The constant that every carrier shares. -/
def ENVELOPE_MAGIC : Bytes := [0x58, 0x43, 0x48, 0x4e]
def ENVELOPE_FORMAT_V0 : UInt8 := 0x00
def TAPROOT_LEAF_VERSION : UInt8 := 0xc0

/-- An envelope as its leaf script states it. -/
structure ParsedEnvelope where
  payload : Bytes
  checksigKey : Bytes

/-- The pushed bytes of a chunk. -/
def Chunk.push? : Chunk → Option Bytes
  | .push bytes => some bytes
  | .op _ => none

/-- The grammar, on the chunks of the script. -/
def parseEnvelopeChunks : List Chunk → Option ParsedEnvelope
  | .op c0 :: .op c1 :: .push magic :: .push format :: rest =>
    let pushes := rest.takeWhile fun c => c.push?.isSome
    match rest.dropWhile fun c => c.push?.isSome with
    | [] => none
    | [.op c2, .push key, .op c3] =>
      if c0 = OP_0 ∧ c1 = OP_IF ∧ magic = ENVELOPE_MAGIC ∧ format = [ENVELOPE_FORMAT_V0] ∧
          pushes ≠ [] ∧ c2 = OP_ENDIF ∧ key.length = 32 ∧ c3 = OP_CHECKSIG then
        some ⟨(pushes.filterMap Chunk.push?).flatten, key⟩
      else none
    | _ => none
  | _ => none

section Derive

variable (B : Bitcoin)

/-- The envelope of a leaf script. -/
def parseEnvelopeScript (script : Bytes) : Option ParsedEnvelope :=
  if script.length < 8 then none
  else
    match B.decompile script with
    | none => none
    | some chunks => if chunks.length < 8 then none else parseEnvelopeChunks chunks

/-- Little-endian bytes. -/
def littleEndian : ℕ → ℕ → Bytes
  | 0, _ => []
  | k + 1, n => UInt8.ofNat n :: littleEndian k (n / 256)

/-- The compact size of a script; one of 2 ^ 32 bytes throws. -/
def compactSizePrefix (script : Bytes) : Option Bytes :=
  let n := script.length
  if n < 0xfd then some [UInt8.ofNat n]
  else if n ≤ 0xffff then some (0xfd :: littleEndian 2 n)
  else if n < 2 ^ 32 then some (0xfe :: littleEndian 4 n)
  else none

/-- The hash of a leaf. -/
def tapleafHash (script : Bytes) : Option Bytes :=
  (compactSizePrefix script).map fun size =>
    B.taggedHash "TapLeaf" (TAPROOT_LEAF_VERSION :: size ++ script)

/-- The recovery leaves of an account of three keys; equal or empty ones throw. -/
def normalizeRecoveryLeaves : Option (Bytes × Bytes) → Option (List Bytes)
  | none => some []
  | some (a, b) => if a = [] ∨ b = [] ∨ a = b then none else some [a, b]

/-- The commit output of an envelope; `none` is a thrown error. -/
def deriveEnvelopeCommit (internalXOnly envelopeScript : Bytes)
    (recoveryLeaves : Option (Bytes × Bytes)) : Option EnvelopeCommit := do
  guard (internalXOnly.length = 32)
  let parsed ← parseEnvelopeScript B envelopeScript
  guard (parsed.checksigKey = internalXOnly)
  let leaves ← normalizeRecoveryLeaves recoveryLeaves
  let p2tr ← B.p2tr internalXOnly (envelopeScript :: leaves)
  let leafHash ← tapleafHash B envelopeScript
  return {
    output := p2tr.output
    tweak := B.taggedHash "TapTweak" (internalXOnly ++ p2tr.merkleRoot)
    leafHash
    script := envelopeScript
    payload := parsed.payload }

/-- The envelope leaf that an input presents. -/
def envelopeLeafFromPsbtInput (inp : PsbtInput) : Option Bytes :=
  match inp.tapLeafScript with
  | [leaf] =>
    if leaf.leafVersion = TAPROOT_LEAF_VERSION.toNat then
      (parseEnvelopeScript B leaf.script).map fun _ => leaf.script
    else none
  | _ => none

/-- What a transaction does with an envelope. -/
def classifyEnvelopeRole (psbt : Psbt) (commit : EnvelopeCommit) : Option EnvelopeRole :=
  if prevoutScript psbt 0 = some commit.output then
    match psbt.txInputs.head?.bind (envelopeLeafFromPsbtInput B) with
    | none => some .cancel
    | some script => if script = commit.script then some .reveal else none
  else if psbt.txOutputs.any fun out => decide (out.script = commit.output) then some .commit
  else none

/-- The tweaks that an envelope round signs under. -/
def envelopeRoundTweaks (env : Option Envelope) (accountTweaks : List Bytes) : List Bytes :=
  match env with
  | none => accountTweaks
  | some env =>
    match env.role with
    | .reveal => []
    | .cancel => [env.commit.tweak]
    | .commit => accountTweaks

end Derive

end XChainSdk
