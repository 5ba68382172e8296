import XChainSdk.Merkle.StateRoot
import XChainSdk.Consensus.Gates
import XChainSdk.LightClient.ProvenSet

/-!
# Proof checks

The verifiers that bind a served proof to a trusted root.  Each one is a list of checks that the
code makes in this order, and the first that refuses or throws decides.

* `runChecks` : the first refusal; `runChecks_eq_pass_iff` says when there is none.
* `toWireIndex`, `sameWireIndex`, `expectedMismatch` : indices and requested identities.
* `verifyBalanceProof`, `verifyLockedBalanceProof`, `verifyContractStateProof`,
  `verifyActionProof`, `verifyValidatorSetProof`.
-/

namespace XChainSdk

open Hash Js HashTree

/-! ### Checks -/

/-- One check: `none` throws, `some none` passes, and a reason refuses. -/
abbrev Check := Option (Option String)

/-- A check that refuses under a condition; the condition may throw. -/
def refuse (cond : Option Bool) (reason : String) : Check :=
  cond.map fun b => if b then some reason else none

/-- The first check that does not pass. -/
def runChecks : List Check → Check
  | [] => some none
  | none :: _ => none
  | some (some reason) :: _ => some (some reason)
  | some none :: checks => runChecks checks

theorem runChecks_eq_pass_iff {checks : List Check} :
    runChecks checks = some none ↔ ∀ c ∈ checks, c = some none := by
  induction checks with
  | nil => simp [runChecks]
  | cons c checks ih =>
    match c with
    | none => simp [runChecks]
    | some (some reason) => simp [runChecks]
    | some none => simp [runChecks, ih]

@[simp] theorem refuse_eq_pass_iff {cond : Option Bool} {reason : String} :
    refuse cond reason = some none ↔ cond = some false := by
  cases cond with
  | none => simp [refuse]
  | some b => cases b <;> simp [refuse]

/-- The result of a proof check. -/
structure ProofVerdict where
  verified : Bool
  amount : Option String
  reason : Option String
  deriving DecidableEq

/-- `unverified` -/
def unverified (reason : String) : ProofVerdict := ⟨false, none, some reason⟩

/-- The verdict of the checks; a thrown error is a refusal, here without the error's own text. -/
def verdictOf (checks : List Check) (amount : Option String) : ProofVerdict :=
  match runChecks checks with
  | none => unverified "VERIFY_ERROR:"
  | some (some reason) => unverified reason
  | some none => ⟨true, amount, none⟩

theorem verified_verdictOf_iff {checks : List Check} {amount : Option String} :
    (verdictOf checks amount).verified = true ↔ ∀ c ∈ checks, c = some none := by
  rw [← runChecks_eq_pass_iff, verdictOf]
  match runChecks checks with
  | none => simp [unverified]
  | some (some reason) => simp [unverified]
  | some none => simp

theorem verdictOf_of_verified {checks : List Check} {amount : Option String}
    (h : (verdictOf checks amount).verified = true) :
    verdictOf checks amount = ⟨true, amount, none⟩ := by
  have hpass := runChecks_eq_pass_iff.2 (verified_verdictOf_iff.1 h)
  rw [verdictOf, hpass]

/-! ### Identities -/

/-- `toWireIndex` -/
def toWireIndex : Js → Option ℕ
  | bigint z => if 0 ≤ z then some z.toNat else none
  | num x => x.safeNat?
  | str s =>
    let cs := trimChars s.toList
    if cs ≠ [] ∧ cs.all Char.isDigit then some (digitsValue cs) else none
  | _ => none

/-- `sameWireIndex` -/
def sameWireIndex (a b : Js) : Bool :=
  match toWireIndex a, toWireIndex b with
  | some x, some y => x == y
  | _, _ => false

/-- The loop of `expectedMismatch`: the first field that differs; a null field throws. -/
def firstMismatch (actual : Js) : List (String × Js) → Check
  | [] => some none
  | (field, want) :: rest =>
    match want with
    | undefined => firstMismatch actual rest
    | null => none
    | _ =>
      if want.toText ≠ (actual.field field).toText then some (some field)
      else firstMismatch actual rest

/-- `expectedMismatch` -/
def expectedMismatch (expected actual : Js) : Check :=
  if expected.truthy then firstMismatch actual (expected.ownEntries.getD []) else some none

/-- `!!expectedMismatch(expected, proof)`. -/
def identityMismatch (expected proof : Js) : Option Bool :=
  (expectedMismatch expected proof).map fun field => field.getD "" != ""

section Verifiers

variable (H : Host)

/-! ### Amounts -/

/-- `!proof || !proof.smt_proof || !proof.sub_root_path`. -/
def malformedProof (proof : Js) (part : String) : Bool :=
  !proof.truthy || !(proof.field part).truthy || !(proof.field "sub_root_path").truthy

/-- The value as a key field. -/
def keyFields (chain network proof : Js) : String × String × String × String :=
  (chain.toText, network.toText, (proof.field "address").toText, (proof.field "tick").toText)

/-- The key of a balance proof. -/
def proofBalanceKey (chain network proof : Js) : Option Digest :=
  let (c, n, a, t) := keyFields chain network proof
  balanceKey H c n a t

/-- The key of a locked-balance proof. -/
def proofEscrowKey (chain network proof : Js) : Option Digest :=
  let (c, n, a, t) := keyFields chain network proof
  escrowKey H c n a t

/-- The leaf against the reported amount. -/
def leafAmountCheck (leaf amount : Js) : Check := do
  let amount ← canonicalAmountJs amount
  if leaf.isNullish then
    let zero ← canonicalAmount "0"
    return if amount = zero then none else some "NONINCLUSION_NONZERO_AMOUNT"
  else
    let l ← amountLeaf H amount
    return if toHex l.bytes = lowerHex H leaf then none else some "LEAF_AMOUNT_MISMATCH"

/-- `index !== M.STATE_SUBTREES.indexOf(name)`, for a name that is in the list. -/
def otherSlot (index : Js) (name : String) : Bool :=
  match index with
  | num (.fin q) => q ≠ (STATE_SUBTREES.idxOf name : ℚ)
  | _ => true

/-- The sub-root against the trusted state root. -/
def subRootBinds (trustedStateRoot subRoot subRootPath : Js) : Option Bool := do
  verifyFixedMerkleProof H trustedStateRoot (← subRoot.toBuf) (subRootPath.field "index")
    (subRootPath.field "siblings")

/-- The checks that bind a leaf under a key to the slot of a sub-root, around the check of the leaf
itself. -/
def slotChecks (name : String) (proof trustedStateRoot : Js) (keyBuf : Option Digest)
    (leafCheck : Check) : List Check :=
  let smt := proof.field "smt_proof"
  let path := proof.field "sub_root_path"
  let root := proof.field name
  [refuse (keyBuf.map fun key => lowerHex H (smt.field "key") != toHex key.bytes) "KEY_MISMATCH",
    leafCheck,
    refuse (do
      let ok ← verifyCompressedSmtProof H root (← keyBuf) (smt.field "leaf_value")
        (smt.field "compressed")
      return !ok) "SMT_PROOF_INVALID",
    refuse (some (otherSlot (path.field "index") name)) "SUBROOT_SLOT_MISMATCH",
    refuse ((subRootBinds H trustedStateRoot root path).map not) "SUBROOT_BIND_INVALID"]

/-- The checks of an amount proof from the derived key on. -/
def amountChecks (proof trustedStateRoot : Js) (keyBuf : Option Digest) : List Check :=
  slotChecks H "balances_root" proof trustedStateRoot keyBuf
    (leafAmountCheck H ((proof.field "smt_proof").field "leaf_value") (proof.field "amount"))

/-- `verifyBalanceProof` -/
def verifyBalanceProof (proof trustedStateRoot chain network expected : Js) : ProofVerdict :=
  verdictOf
    ([refuse (some (malformedProof proof "smt_proof")) "MALFORMED_PROOF",
        refuse (identityMismatch expected proof) "REQUESTED_IDENTITY_MISMATCH"] ++
      amountChecks H proof trustedStateRoot (proofBalanceKey H chain network proof))
    (canonicalAmountJs (proof.field "amount"))

/-- The caller names the height of the trusted checkpoint. -/
def haveTrustedHeight : Js → Bool
  | undefined | null | str "" => false
  | _ => true

/-- The height that gates the locked leaf: the trusted one, or 0. -/
def gateHeight (label : ℕ) (trustedHeight : Js) : Js :=
  let gateWire := if haveTrustedHeight trustedHeight then label else 0
  num (if gateWire ≤ 9007199254740991 then .fin gateWire else .nan)

/-- The liveness checks of a locked-balance proof. -/
def escrowChecks (proof chain network trustedHeight : Js) : List Check :=
  match toWireIndex (proof.field "height") with
  | none => [some (some "ESCROW_LEAF_NOT_COMMITTED")]
  | some label =>
    [refuse (some (haveTrustedHeight trustedHeight &&
        !sameWireIndex (bigint label) trustedHeight)) "PROOF_HEIGHT_MISMATCH",
      refuse (some !isEscrowLockedLeafActive (gateHeight label trustedHeight) network chain)
        "ESCROW_LEAF_NOT_COMMITTED"]

/-- `verifyLockedBalanceProof` -/
def verifyLockedBalanceProof (proof trustedStateRoot chain network expected trustedHeight : Js) :
    ProofVerdict :=
  verdictOf
    ([refuse (some (malformedProof proof "smt_proof")) "MALFORMED_PROOF",
        refuse (identityMismatch expected proof) "REQUESTED_IDENTITY_MISMATCH"] ++
      escrowChecks proof chain network trustedHeight ++
      amountChecks H proof trustedStateRoot (proofEscrowKey H chain network proof))
    (canonicalAmountJs (proof.field "amount"))

/-! ### Contract state -/

/-- The key of a contract-state proof. -/
def proofContractStateKey (chain network proof : Js) : Option Digest :=
  contractStateKey H chain.toText network.toText (proof.field "contract_index").toText
    (proof.field "state_key").toText

/-- The stored string that a proof reports. -/
def stateValue (proof : Js) : Option String :=
  if (proof.field "state_value").isNullish then none else some (proof.field "state_value").toText

/-- The leaf against the reported string. -/
def leafValueCheck (leaf : Js) (val : Option String) : Check :=
  if leaf.isNullish then
    some (if val.isSome then some "NONINCLUSION_WITH_VALUE" else none)
  else
    match val with
    | none => some (some "INCLUSION_WITHOUT_VALUE")
    | some v =>
      some (if toHex (leafHash H (utf8 v)).bytes = lowerHex H leaf then none
        else some "LEAF_VALUE_MISMATCH")

/-- The result of `verifyContractStateProof`. -/
structure ContractStateVerdict where
  verified : Bool
  stateValue : Option String
  reason : Option String
  deriving DecidableEq

/-- `verifyContractStateProof` -/
def verifyContractStateProof (proof trustedStateRoot chain network expected : Js) :
    ContractStateVerdict :=
  let verdict := verdictOf
    ([refuse (some (malformedProof proof "smt_proof")) "MALFORMED_PROOF",
        refuse (identityMismatch expected proof) "REQUESTED_IDENTITY_MISMATCH"] ++
      slotChecks H "contract_state_root" proof trustedStateRoot
        (proofContractStateKey H chain network proof)
        (leafValueCheck H ((proof.field "smt_proof").field "leaf_value") (stateValue proof)))
    (stateValue proof)
  ⟨verdict.verified, verdict.amount, verdict.reason⟩

/-! ### Actions -/

/-- `actionsLeaf` of the proof's own fields; an absent `tx_index` or `action` is empty. -/
def actionsLeaf (proof : Js) : Option Digest :=
  (joinFields ["A", (proof.field "action_index").toText, (proof.field "tx_index").elemText,
    (proof.field "action").elemText]).map (leafHash H)

/-- `verifyActionProof` -/
def verifyActionProof (proof trustedBlockMerkleRoot : Js) : ProofVerdict :=
  let path := proof.field "merkle_proof"
  verdictOf
    [refuse (some (!proof.truthy || !path.truthy)) "MALFORMED_PROOF",
      refuse ((actionsLeaf H proof).map fun leaf => lowerHex H (proof.field "leaf") !=
        toHex leaf.bytes) "LEAF_MISMATCH",
      refuse (do
        let ok ← verifyFixedMerkleProof H trustedBlockMerkleRoot (← actionsLeaf H proof).bytes
          (path.field "index") (path.field "siblings")
        return !ok) "MERKLE_PROOF_INVALID"]
    none

/-! ### Validator sets -/

/-- One row of a capability: its leaf, then its proof under the key of its pubkey. -/
def memberChecks (stakesRoot : Js) (cap : String) (v : Js) : List Check :=
  let smt := v.field "smt_proof"
  let pubkey := (v.field "pubkey").toText
  [refuse (do
      let smt ← v.get "smt_proof"
      let leaf ← stakeMemberLeaf H (v.field "source").toText (v.field "weight")
      return lowerHex H (smt.getIf "leaf_value") != toHex leaf.bytes)
      ("MEMBER_LEAF_MISMATCH:" ++ pubkey),
    refuse (do
      let ok ← verifyCompressedSmtProof H stakesRoot (← stakeKey H pubkey cap)
        (← smt.get "leaf_value") (← smt.get "compressed")
      return !ok) ("MEMBER_PROOF_INVALID:" ++ pubkey)]

/-- The committed total of a capability, when it is served. -/
def totalChecks (stakesRoot : Js) (cap : String) (c : Js) : List Check :=
  let proof := c.field "total_proof"
  if proof.truthy then
    [refuse (do
        let leaf ← stakeTotalLeaf H (c.field "total")
        return lowerHex H (proof.field "leaf_value") != toHex leaf.bytes)
        ("TOTAL_LEAF_MISMATCH:" ++ cap),
      refuse (do
        let ok ← verifyCompressedSmtProof H stakesRoot (← stakeKey H STAKE_TOTAL_PUBKEY cap)
          (proof.field "leaf_value") (proof.field "compressed")
        return !ok) ("TOTAL_PROOF_INVALID:" ++ cap)]
  else []

/-- The rows of a capability. -/
def capabilityRows (c : Js) : Option (List Js) := do
  ((← c.get "validators").or (arr [])).iter

/-- The checks of one capability. -/
def capabilityChecks (stakesRoot : Js) (cap : String) (c : Js) : List Check :=
  match capabilityRows c with
  | none => [none]
  | some rows => rows.flatMap (memberChecks H stakesRoot cap) ++ totalChecks H stakesRoot cap c

/-- A row as it is returned. -/
def provenRow (v : Js) : Js :=
  obj [("pubkey", str (v.field "pubkey").toText), ("source", str (v.field "source").toText),
    ("weight", str (v.field "weight").toText)]

/-- A capability as it is returned. -/
def provenSet (c : Js) : ProvenSet where
  validators := ⟨((capabilityRows c).getD []).map provenRow, false⟩
  total := str <|
    if (c.field "total_proof").truthy then (canonicalAmount (c.field "total").toText).getD ""
    else "0"

/-- The result of `verifyValidatorSetProof`. -/
structure ValidatorSetVerdict where
  verified : Bool
  capabilities : List (String × ProvenSet)
  reason : Option String

/-- The checks of a validator-set proof. -/
def validatorSetChecks (proof trustedStateRoot : Js) : List Check :=
  let path := proof.field "sub_root_path"
  let root := proof.field "stakes_root"
  [refuse (some (malformedProof proof "capabilities")) "MALFORMED_PROOF",
    refuse (some (otherSlot (path.field "index") "stakes_root")) "SUBROOT_SLOT_MISMATCH",
    refuse ((subRootBinds H trustedStateRoot root path).map not) "SUBROOT_BIND_INVALID"] ++
  ((proof.field "capabilities").ownEntries.getD []).flatMap fun (cap, c) =>
    capabilityChecks H root cap c

/-- `verifyValidatorSetProof` -/
def verifyValidatorSetProof (proof trustedStateRoot : Js) : ValidatorSetVerdict :=
  match runChecks (validatorSetChecks H proof trustedStateRoot) with
  | none => ⟨false, [], some "VERIFY_ERROR:"⟩
  | some (some reason) => ⟨false, [], some reason⟩
  | some none =>
    ⟨true, ((proof.field "capabilities").ownEntries.getD []).map fun (cap, c) =>
      (cap, provenSet c), none⟩

end Verifiers

end XChainSdk
