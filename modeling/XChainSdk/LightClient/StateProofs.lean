import XChainSdk.Js.CodeUnits
import XChainSdk.LightClient.BalanceSoundness

/-!
# Proofs of spendable balances, locked balances and contract state

Three verifiers answer from one committed state: the amounts under spendable and under locked keys
share the sub-tree of slot 0, and the strings that contracts stored are in slot 4.

* `CommittedState`, `StateQuery` : what is committed, and what a proof may answer.
* `StateQuery.verify_sound` : what a verified proof reports, up to the reading of an array leaf.
* `EscrowArmed` : the trusted heights at which a locked balance may be proved.
* `StateQuery.apart` : one proof object answers one query.
* `StateQuery.exists_verified_of_forgeable`, `StateQuery.exists_verified_of_stored` : the proofs that a
  server can make up, and the genuine ones of stored strings.
-/

namespace XChainSdk

open Hash Js HashTree

/-! ### Committed states -/

/-- Strings under keys. -/
structure ValueMap where
  entries : List (Digest × CodeUnits)
  nodup : (entries.map Prod.fst).Nodup

namespace ValueMap

variable (m : ValueMap) (key : Digest)

/-- The string stored under a key. -/
def get : Option CodeUnits := m.entries.lookup key

/-- The leaves `leafHash(value)`, as the texts they hash. -/
def leafMap : LeafMap where
  entries := m.entries.map fun e => (e.1, utf8 e.2.text)
  nodup := by simpa [List.map_map, Function.comp_def] using m.nodup

theorem get_leafMap : m.leafMap.get key = (m.get key).map fun v => utf8 v.text :=
  Loop.lookup_map_snd (fun v : CodeUnits => utf8 v.text) m.entries key

theorem endPreimage_leafMap : m.leafMap.endPreimage key =
    (((m.get key).map CodeUnits.text).map amountLeafPreimage).getD emptyLeafPreimage := by
  rw [LeafMap.endPreimage, get_leafMap]
  cases m.get key <;> rfl

end ValueMap

/-- The amounts of `balances_root`, spendable and locked, the strings of `contract_state_root`, and
arbitrary other sub-trees. -/
structure CommittedState where
  balances : AmountMap
  contractState : ValueMap
  other : LeafState

namespace CommittedState

/-- The state as one with amounts and other sub-trees. -/
def balanceState (σ : CommittedState) : BalanceState where
  balances := σ.balances
  other name := if name = "contract_state_root" then σ.contractState.leafMap else σ.other name

/-- The leaves of every sub-tree. -/
def leaves (σ : CommittedState) : LeafState := σ.balanceState.leaves

end CommittedState

/-! ### Queries -/

/-- What a proof answers. -/
inductive StateQuery where
  | spendable (address tick : String)
  | locked (address tick : String)
  | contractState (contractIndex stateKey : String)
  deriving DecidableEq

/-- A verdict and the value that it reports. -/
structure StateReport where
  verified : Bool
  value : Option String

namespace StateQuery

variable (H : Host) (q : StateQuery)

/-- The domain and the fields of the key. -/
def fields (chain network : String) : List String :=
  match q with
  | spendable address tick => ["XCHAIN_BAL", chain, network, address, tick]
  | locked address tick => ["XCHAIN_ESC", chain, network, address, tick]
  | contractState contractIndex stateKey => ["XCHAIN_CST", chain, network, contractIndex, stateKey]

/-- The key that the verifier derives. -/
def key (chain network : String) : Option Digest :=
  match q with
  | spendable address tick => balanceKey H chain network address tick
  | locked address tick => escrowKey H chain network address tick
  | contractState contractIndex stateKey => contractStateKey H chain network contractIndex stateKey

/-- The proof names the query. -/
def Names (proof : Js) : Prop :=
  match q with
  | spendable address tick | locked address tick =>
    (proof.field "address").toText = address ∧ (proof.field "tick").toText = tick
  | contractState contractIndex stateKey =>
    (proof.field "contract_index").toText = contractIndex ∧
      (proof.field "state_key").toText = stateKey

/-- The slot that the verifier pins. -/
def slot : ℕ :=
  match q with
  | spendable _ _ | locked _ _ => 0
  | contractState _ _ => 4

/-- The verifier of the query. -/
def verify (proof root chain network expected trustedHeight : Js) : StateReport :=
  match q with
  | spendable _ _ =>
    let v := verifyBalanceProof H proof root chain network expected
    ⟨v.verified, v.amount⟩
  | locked _ _ =>
    let v := verifyLockedBalanceProof H proof root chain network expected trustedHeight
    ⟨v.verified, v.amount⟩
  | contractState _ _ =>
    let v := verifyContractStateProof H proof root chain network expected
    ⟨v.verified, v.stateValue⟩

/-- What the state commits under a key: an amount, which is zero for an absent leaf, or the text of a
stored string. -/
def committed (σ : CommittedState) (key : Digest) : Option String :=
  match q with
  | spendable _ _ | locked _ _ => some (σ.balances.amountAt key)
  | contractState _ _ => (σ.contractState.get key).map CodeUnits.text

/-- The text that the state stores under a key. -/
def stored (σ : CommittedState) (key : Digest) : Option String :=
  match q with
  | spendable _ _ | locked _ _ => σ.balances.get key
  | contractState _ _ => (σ.contractState.get key).map CodeUnits.text

/-- The report for a key without a leaf. -/
def absentValue : Option String :=
  match q with
  | spendable _ _ | locked _ _ => some zeroAmount
  | contractState _ _ => none

/-- The values that a leaf may have. -/
def IsValue (v : String) : Prop :=
  match q with
  | spendable _ _ | locked _ _ => canonicalAmount v = some v
  | contractState _ _ => True

/-- The byte strings that checking a proof hashes, its key apart. -/
def proofHashed (key : Digest) (proof : Js) : Set Bytes :=
  match q with
  | spendable _ _ | locked _ _ => amountProofHashed H key proof
  | contractState _ _ =>
    let smt := proof.field "smt_proof"
    {x | (smt.field "leaf_value").isNullish = false ∧
        ∃ v, stateValue proof = some v ∧ x = amountLeafPreimage v} ∪
      boundHashed H key (smt.field "leaf_value") (smt.field "compressed")
        (proof.field "contract_state_root") (proof.field "sub_root_path")

variable {H} {q}

theorem key_eq (chain network : String) :
    q.key H chain network = (joinFields (q.fields chain network)).map H.sha256 := by
  cases q <;> rfl

/-- The fields of a key determine the query. -/
theorem fields_inj {q' : StateQuery} {chain network chain' network' : String}
    (h : q.fields chain network = q'.fields chain' network') :
    q = q' ∧ chain = chain' ∧ network = network' := by
  cases q <;> cases q' <;> simp_all [fields]

theorem committed_eq_absentValue_iff (σ : CommittedState) (key : Digest) :
    q.committed σ key = q.absentValue ↔ q.stored σ key = none := by
  cases q with
  | spendable address tick => simp [committed, absentValue, stored, AmountMap.amountAt_eq_zero_iff]
  | locked address tick => simp [committed, absentValue, stored, AmountMap.amountAt_eq_zero_iff]
  | contractState contractIndex stateKey => rfl

end StateQuery

/-! ### The height of a locked balance -/

/-- The height from which the locked leaf is committed on a chain. -/
def escrowThreshold (network chain : Js) : Option ℕ :=
  if chain.isNullish then none
  else (ESCROW_LOCKED_LEAF_ACTIVATION.lookup (chain.toText ++ ":" ++ network.toText)).join

/-- The trusted height is at or above the armed one, or there is none and the leaf is armed from
height 0.  The label of the proof plays no part. -/
def EscrowArmed (network chain trustedHeight : Js) : Prop :=
  ∃ t, escrowThreshold network chain = some t ∧
    if haveTrustedHeight trustedHeight then
      ∃ h, toWireIndex trustedHeight = some h ∧ t ≤ h ∧ h ≤ 9007199254740991
    else t = 0

theorem isEscrowLockedLeafActive_iff {height network chain : Js} :
    isEscrowLockedLeafActive height network chain = true ↔
      ∃ t b, escrowThreshold network chain = some t ∧ strictHeight height = some b ∧ (t : ℚ) ≤ b := by
  unfold isEscrowLockedLeafActive escrowThreshold
  split_ifs
  · simp
  · cases strictHeight height with
    | none => simp
    | some b =>
      cases (ESCROW_LOCKED_LEAF_ACTIVATION.lookup (chain.toText ++ ":" ++ network.toText)).join with
      | none => simp
      | some t => simp

theorem strictHeight_natCast (n : ℕ) : strictHeight (num (.fin (n : ℚ))) = some (n : ℚ) := by
  simp [strictHeight]

theorem toWireIndex_natCast (n : ℕ) : toWireIndex (bigint n) = some n := by
  simp [toWireIndex]

theorem isEscrowLockedLeafActive_gateHeight_iff {label : ℕ} {network chain trustedHeight : Js} :
    isEscrowLockedLeafActive (gateHeight label trustedHeight) network chain = true ↔
      ∃ t, escrowThreshold network chain = some t ∧
        if haveTrustedHeight trustedHeight then t ≤ label ∧ label ≤ 9007199254740991
        else t = 0 := by
  rw [isEscrowLockedLeafActive_iff, gateHeight]
  split_ifs with hhave hle
  · simp [strictHeight_natCast, hle]
  · simp [strictHeight, hle]
  · have hzero : strictHeight (num (.fin ((0 : ℕ) : ℚ))) = some ((0 : ℕ) : ℚ) :=
      strictHeight_natCast 0
    rw [hzero]
    simp
  · omega

/-- The label only has to be an index that agrees with the trusted height. -/
theorem escrowChecks_pass_iff {proof network chain trustedHeight : Js} :
    (∀ c ∈ escrowChecks proof chain network trustedHeight, c = some none) ↔
      (∃ label, toWireIndex (proof.field "height") = some label ∧
        (haveTrustedHeight trustedHeight = true → toWireIndex trustedHeight = some label)) ∧
      EscrowArmed network chain trustedHeight := by
  unfold escrowChecks
  cases hlabel : toWireIndex (proof.field "height") with
  | none => simp
  | some label =>
    have hsame : sameWireIndex (bigint label) trustedHeight = true ↔
        toWireIndex trustedHeight = some label := by
      rw [sameWireIndex, toWireIndex_natCast]
      cases toWireIndex trustedHeight with
      | none => simp
      | some h => simp [eq_comm (a := label)]
    simp only [List.mem_cons, List.not_mem_nil, or_false, forall_eq_or_imp, forall_eq,
      refuse_eq_pass_iff, Option.some.injEq, Bool.and_eq_false_iff, Bool.not_eq_false',
      isEscrowLockedLeafActive_gateHeight_iff, exists_eq_left', EscrowArmed, hsame]
    cases hhave : haveTrustedHeight trustedHeight with
    | false => simp
    | true =>
      simp only [Bool.true_eq_false, false_or, if_true, forall_const]
      refine and_congr_right fun hheight => ?_
      simp [hheight]

/-! ### The verifiers -/

theorem leafValueCheck_eq_pass_iff {H : Host} {leaf : Js} {val : Option String} :
    leafValueCheck H leaf val = some none ↔ ClaimsValue H leaf val := by
  unfold leafValueCheck ClaimsValue
  cases hnull : leaf.isNullish with
  | true => cases val <;> simp
  | false => cases val <;> simp [eq_comm]

section Verifiers

variable {H : Host} {proof root chain network expected trustedHeight : Js}

theorem verifyLockedBalanceProof_verified_iff :
    (verifyLockedBalanceProof H proof root chain network expected trustedHeight).verified = true ↔
      malformedProof proof "smt_proof" = false ∧ identityMismatch expected proof = some false ∧
        (∀ c ∈ escrowChecks proof chain network trustedHeight, c = some none) ∧
        ∀ c ∈ amountChecks H proof root (proofEscrowKey H chain network proof), c = some none := by
  rw [verifyLockedBalanceProof, verified_verdictOf_iff, List.forall_mem_append,
    List.forall_mem_append]
  simp [and_assoc]

theorem verifyContractStateProof_verified_iff :
    (verifyContractStateProof H proof root chain network expected).verified = true ↔
      malformedProof proof "smt_proof" = false ∧ identityMismatch expected proof = some false ∧
        ∀ c ∈ slotChecks H "contract_state_root" proof root
          (proofContractStateKey H chain network proof)
          (leafValueCheck H ((proof.field "smt_proof").field "leaf_value") (stateValue proof)),
          c = some none := by
  rw [verifyContractStateProof]
  dsimp only
  rw [verified_verdictOf_iff, List.forall_mem_append]
  simp [and_assoc]

theorem stateValue_of_verified
    (h : (verifyContractStateProof H proof root chain network expected).verified = true) :
    (verifyContractStateProof H proof root chain network expected).stateValue =
      stateValue proof := by
  rw [verifyContractStateProof] at h ⊢
  dsimp only at h ⊢
  rw [verdictOf_of_verified h]

end Verifiers

namespace StateQuery

variable {H : Host} {q : StateQuery} {σ : CommittedState} {key : Digest}

/-- Some one-element array has the text of the leaf hash of `v` and a byte that the key's path
reaches. -/
def Forgeable (H : Host) (σ : CommittedState) (q : StateQuery) (key : Digest) (v : String) : Prop :=
  ∃ x β, lowerHex H (arr [x]) = toHex (leafHash H (utf8 v)).bytes ∧ toUint8 x = some β ∧
    σ.leaves.ReachesByte H q.slot key β

/-- The key that the verifier derives from a proof. -/
def proofKey (H : Host) (q : StateQuery) (chain network proof : Js) : Option Digest :=
  match q with
  | spendable _ _ => proofBalanceKey H chain network proof
  | locked _ _ => proofEscrowKey H chain network proof
  | contractState _ _ => proofContractStateKey H chain network proof

theorem proofKey_of_names {proof chain network : Js} (h : q.Names proof) :
    proofKey H q chain network proof = q.key H chain.toText network.toText := by
  cases q <;> obtain ⟨rfl, rfl⟩ := h <;> rfl

/-- A verified proof has the derived key as its own. -/
theorem key_of_verified {proof root chain network expected trustedHeight : Js} (hnames : q.Names proof)
    (h : (q.verify H proof root chain network expected trustedHeight).verified = true) :
    ∃ key, q.key H chain.toText network.toText = some key ∧
      lowerHex H ((proof.field "smt_proof").field "key") = toHex key.bytes := by
  rw [← proofKey_of_names hnames]
  cases q with
  | spendable address tick =>
    obtain ⟨-, -, hpass⟩ := verifyBalanceProof_verified_iff.1 h
    obtain ⟨key, a, hkey, htext, -⟩ := amountChecks_pass_iff.1 hpass
    exact ⟨key, hkey, htext⟩
  | locked address tick =>
    obtain ⟨-, -, -, hpass⟩ := verifyLockedBalanceProof_verified_iff.1 h
    obtain ⟨key, a, hkey, htext, -⟩ := amountChecks_pass_iff.1 hpass
    exact ⟨key, hkey, htext⟩
  | contractState contractIndex stateKey =>
    obtain ⟨-, -, hpass⟩ := verifyContractStateProof_verified_iff.1 h
    obtain ⟨-, key, hkey, htext, -⟩ := slotChecks_pass_iff.1 hpass
    exact ⟨key, hkey, htext⟩

/-- **One proof object answers one query**, of one verifier, on one chain. -/
theorem apart {q' : StateQuery} {proof root chain network expected trustedHeight : Js}
    {root' chain' network' expected' trustedHeight' : Js}
    (hS : CollisionFree H.sha256 {x | joinFields (q.fields chain.toText network.toText) = some x ∨
      joinFields (q'.fields chain'.toText network'.toText) = some x})
    (hnames : q.Names proof) (hnames' : q'.Names proof)
    (h : (q.verify H proof root chain network expected trustedHeight).verified = true)
    (h' : (q'.verify H proof root' chain' network' expected' trustedHeight').verified = true) :
    q = q' ∧ chain.toText = chain'.toText ∧ network.toText = network'.toText := by
  obtain ⟨key, hkey, htext⟩ := key_of_verified hnames h
  obtain ⟨key', hkey', htext'⟩ := key_of_verified hnames' h'
  have hsame : key = key' := Digest.ext (toHex_injective (htext.symm.trans htext'))
  subst hsame
  rw [key_eq] at hkey hkey'
  obtain ⟨x, hx, hxkey⟩ := Option.map_eq_some_iff.1 hkey
  obtain ⟨y, hy, hykey⟩ := Option.map_eq_some_iff.1 hkey'
  have hxy : x = y := hS (.inl hx) (.inr hy) (hxkey.trans hykey.symm)
  subst hxy
  exact fields_inj (joinFields_inj (by cases q <;> simp [fields]) (by cases q' <;> simp [fields]) hx
    hy)

/-- **What a verified proof reports**: the committed value, or a forgeable one. -/
theorem verify_sound {proof chain network expected trustedHeight : Js}
    (hkey : q.key H chain.toText network.toText = some key) (hnames : q.Names proof)
    (hS : CollisionFree H.sha256 ({x | x ∈ σ.leaves.hashed H} ∪ q.proofHashed H key proof))
    (h : (q.verify H proof (hexText (σ.leaves.root H)) chain network expected
      trustedHeight).verified = true) :
    (q.verify H proof (hexText (σ.leaves.root H)) chain network expected trustedHeight).value =
        q.committed σ key ∨
      ∃ v, (q.verify H proof (hexText (σ.leaves.root H)) chain network expected
          trustedHeight).value = some v ∧ q.IsValue v ∧
        amountLeafPreimage v ∈ q.proofHashed H key proof ∧ q.Forgeable H σ key v := by
  rw [← proofKey_of_names hnames] at hkey
  cases q with
  | spendable address tick =>
    obtain ⟨-, -, hpass⟩ := verifyBalanceProof_verified_iff.1 h
    rw [show proofBalanceKey H chain network proof = some key from hkey] at hpass
    obtain ⟨a, ha, hself, hreport⟩ := amountChecks_report hS hpass
    have hvalue : (verifyBalanceProof H proof (hexText (σ.leaves.root H)) chain network
        expected).amount = some a := by
      have hverified : (verifyBalanceProof H proof (hexText (σ.leaves.root H)) chain network
        expected).verified = true := h
      rw [verifyBalanceProof] at hverified ⊢
      rw [verdictOf_of_verified hverified, ha]
    rcases hreport with rfl | ⟨hin, hforge⟩
    · exact .inl hvalue
    · exact .inr ⟨a, hvalue, hself, hin, hforge⟩
  | locked address tick =>
    obtain ⟨-, -, -, hpass⟩ := verifyLockedBalanceProof_verified_iff.1 h
    rw [show proofEscrowKey H chain network proof = some key from hkey] at hpass
    obtain ⟨a, ha, hself, hreport⟩ := amountChecks_report hS hpass
    have hvalue : (verifyLockedBalanceProof H proof (hexText (σ.leaves.root H)) chain network
        expected trustedHeight).amount = some a := by
      have hverified : (verifyLockedBalanceProof H proof (hexText (σ.leaves.root H)) chain network
        expected trustedHeight).verified = true := h
      rw [verifyLockedBalanceProof] at hverified ⊢
      rw [verdictOf_of_verified hverified, ha]
    rcases hreport with rfl | ⟨hin, hforge⟩
    · exact .inl hvalue
    · exact .inr ⟨a, hvalue, hself, hin, hforge⟩
  | contractState contractIndex stateKey =>
    have hvalue := stateValue_of_verified h
    obtain ⟨-, -, hpass⟩ := verifyContractStateProof_verified_iff.1 h
    obtain ⟨hleaf, key', hkey', -, hproof, hslot, hbind⟩ := slotChecks_pass_iff.1 hpass
    cases hkey'.symm.trans hkey
    have hclaim := leafValueCheck_eq_pass_iff.1 hleaf
    have hend := σ.contractState.endPreimage_leafMap key
    refine (bound_value 4 "contract_state_root" hS (fun x hx => .inl hx) rfl rfl hend
      (fun x hx => .inr (.inr hx)) (fun v hv hnull => .inr (.inl ⟨hnull, v, hv, rfl⟩)) hclaim hproof
      hslot hbind).imp (fun hstored => hvalue.trans hstored) ?_
    rintro ⟨x, β, hx, hβ, hreach⟩
    rcases hclaim with ⟨hnull, -⟩ | ⟨v, hv, hnull, htext⟩
    · rw [hx] at hnull
      cases hnull
    · exact ⟨v, hvalue.trans hv, trivial, .inl ⟨hnull, v, hv, rfl⟩, x, β, hx ▸ htext, hβ, hreach⟩

end StateQuery

/-! ### Forged proofs -/

/-- The label of a proof that agrees with the trusted height. -/
def labelFor (trustedHeight : Js) : Js :=
  if haveTrustedHeight trustedHeight then trustedHeight else str "0"

/-- A served proof of a locked balance. -/
def lockedProof (address tick amount : String) (key : Digest)
    (leaf subRoot compressed path height : Js) : Js :=
  obj [("address", str address), ("tick", str tick), ("amount", str amount),
    ("balances_root", subRoot),
    ("smt_proof", obj [("key", hexText key.bytes), ("leaf_value", leaf),
      ("compressed", compressed)]),
    ("sub_root_path", path), ("height", height)]

/-- A served proof of a contract's state. -/
def contractStateProof (contractIndex stateKey value : String) (key : Digest)
    (leaf subRoot compressed path : Js) : Js :=
  obj [("contract_index", str contractIndex), ("state_key", str stateKey),
    ("state_value", str value), ("contract_state_root", subRoot),
    ("smt_proof", obj [("key", hexText key.bytes), ("leaf_value", leaf),
      ("compressed", compressed)]),
    ("sub_root_path", path)]

namespace StateQuery

variable {H : Host} {q : StateQuery} {σ : CommittedState} {key : Digest}

/-- The verifier can pass at all: a locked balance has to be armed at the trusted height. -/
def Servable (q : StateQuery) (chain network trustedHeight : Js) : Prop :=
  match q with
  | locked _ _ => EscrowArmed network chain trustedHeight
  | spendable _ _ | contractState _ _ => True

/-- A forgeable value is reported by some verified proof. -/
theorem exists_verified_of_forgeable {chain network trustedHeight : Js} {v : String}
    (hkey : q.key H chain.toText network.toText = some key)
    (hservable : q.Servable chain network trustedHeight) (hvalue : q.IsValue v)
    (hforge : q.Forgeable H σ key v) :
    ∃ proof, q.Names proof ∧
      q.proofHashed H key proof ⊆ insert (amountLeafPreimage v) {x | x ∈ σ.leaves.hashed H} ∧
      q.verify H proof (hexText (σ.leaves.root H)) chain network undefined trustedHeight =
        ⟨true, some v⟩ := by
  cases q with
  | spendable address tick =>
    obtain ⟨proof, haddress, htick, hhashed, hverdict⟩ :=
      XChainSdk.exists_verified_of_forgeable (σ := σ.balanceState) hkey hvalue hforge
    refine ⟨proof, ⟨haddress, htick⟩, hhashed, ?_⟩
    rw [show σ.leaves = σ.balanceState.leaves from rfl, verify, hverdict]
  | locked address tick =>
    -- The forged leaf is a one-element array, which stands for one byte.
    obtain ⟨x, β, htext, hβ, hreach⟩ := hforge
    obtain ⟨subRoot, top, compressed, hproof, hslot, hbind, hhashed⟩ :=
      exists_forged_proof 0 "balances_root" rfl hβ hreach
    let proof := lockedProof address tick v key (arr [x]) (hexText subRoot) compressed
      (servedPath 0 top) (labelFor trustedHeight)
    have hnames : (locked address tick).Names proof := ⟨Js.toText_str _, Js.toText_str _⟩
    refine ⟨proof, hnames, Set.union_subset ?_ fun y hy => .inr (hhashed hy), ?_⟩
    · rintro y ⟨-, a, ha, rfl⟩
      cases hvalue.symm.trans ha
      exact .inl rfl
    -- The proof carries a height label that the escrow checks take.
    · have hescrow : ∀ c ∈ escrowChecks proof chain network trustedHeight, c = some none := by
        refine escrowChecks_pass_iff.2 ⟨?_, hservable⟩
        obtain ⟨t, -, ht⟩ := hservable
        change ∃ label, toWireIndex (labelFor trustedHeight) = some label ∧ _
        unfold labelFor
        split_ifs at ht ⊢ with hhave
        · obtain ⟨h, hheight, -⟩ := ht
          exact ⟨h, hheight, fun _ => hheight⟩
        · exact ⟨0, by decide, fun h => absurd h hhave⟩
      have hpass : (verifyLockedBalanceProof H proof (hexText (σ.leaves.root H)) chain network
          undefined trustedHeight).verified = true := by
        refine verifyLockedBalanceProof_verified_iff.2 ⟨rfl, rfl, hescrow, amountChecks_pass_iff.2
          ⟨key, v, ?_, lowerHex_hexText H _, hvalue, .inr ⟨rfl, htext⟩, hproof, hslot, hbind⟩⟩
        rw [← hkey, ← proofKey_of_names hnames]
        rfl
      change StateReport.mk (verifyLockedBalanceProof H proof _ chain network undefined
        trustedHeight).verified _ = _
      rw [hpass]
      refine congrArg (StateReport.mk true) ?_
      rw [verifyLockedBalanceProof] at hpass ⊢
      rw [verdictOf_of_verified hpass]
      exact hvalue
  | contractState contractIndex stateKey =>
    obtain ⟨x, β, htext, hβ, hreach⟩ := hforge
    obtain ⟨subRoot, top, compressed, hproof, hslot, hbind, hhashed⟩ :=
      exists_forged_proof 4 "contract_state_root" rfl hβ hreach
    let proof := contractStateProof contractIndex stateKey v key (arr [x]) (hexText subRoot)
      compressed (servedPath 4 top)
    have hnames : (contractState contractIndex stateKey).Names proof :=
      ⟨Js.toText_str _, Js.toText_str _⟩
    have hstate : stateValue proof = some v := congrArg some (Js.toText_str v)
    refine ⟨proof, hnames, Set.union_subset ?_ fun y hy => .inr (hhashed hy), ?_⟩
    · rintro y ⟨-, a, ha, rfl⟩
      cases hstate.symm.trans ha
      exact .inl rfl
    · have hpass : (verifyContractStateProof H proof (hexText (σ.leaves.root H)) chain network
          undefined).verified = true := by
        refine verifyContractStateProof_verified_iff.2 ⟨rfl, rfl, slotChecks_pass_iff.2
          ⟨leafValueCheck_eq_pass_iff.2 (.inr ⟨v, hstate, rfl, htext⟩), key, ?_,
            lowerHex_hexText H _, hproof, hslot, hbind⟩⟩
        rw [← hkey, ← proofKey_of_names hnames]
        rfl
      change StateReport.mk (verifyContractStateProof H proof _ chain network undefined).verified
        _ = _
      rw [hpass, stateValue_of_verified hpass, hstate]

/-- The genuine proof of a stored string is verified, and it hashes nothing that the state did not. -/
theorem exists_verified_of_stored {contractIndex stateKey : String} {u : CodeUnits}
    {chain network trustedHeight : Js}
    (hkey : (contractState contractIndex stateKey).key H chain.toText network.toText = some key)
    (hstored : σ.contractState.get key = some u) :
    ∃ leaf subRoot compressed path,
      (contractState contractIndex stateKey).proofHashed H key
          (contractStateProof contractIndex stateKey u.text key leaf subRoot compressed path) ⊆
        {x | x ∈ σ.leaves.hashed H} ∧
      (contractState contractIndex stateKey).verify H
          (contractStateProof contractIndex stateKey u.text key leaf subRoot compressed path)
          (hexText (σ.leaves.root H)) chain network undefined trustedHeight =
        ⟨true, some u.text⟩ := by
  let tree := (σ.leaves "contract_state_root").tree H
  obtain ⟨hslot, hbind, htop⟩ := subRootBinds_topSiblings (H := H) (σ := σ.leaves) 4
    "contract_state_root" rfl rfl
  obtain ⟨hproof, hsmt⟩ := tree.verifyCompressedSmtProof_prove H key
  have hget : (σ.leaves "contract_state_root").get key = some (utf8 u.text) := by
    change σ.contractState.leafMap.get key = _
    rw [ValueMap.get_leafMap, hstored]
    rfl
  have hleaf : (tree.prove H key).leaf_value = hexText (leafHash H (utf8 u.text)).bytes := by
    rw [SparseMerkleTree.prove, LeafMap.get_tree, hget]
    rfl
  rw [hleaf] at hproof hsmt
  have hin : ∀ x ∈ (σ.leaves "contract_state_root").hashed H, x ∈ σ.leaves.hashed H := fun x hx =>
    List.mem_append_left _ (List.mem_flatMap.2 ⟨_, by decide, hx⟩)
  have hend : amountLeafPreimage u.text ∈ σ.leaves.hashed H := by
    have hx := hin _ ((σ.leaves "contract_state_root").endPreimage_mem_hashed H key)
    rwa [LeafMap.endPreimage, hget] at hx
  let leaf := hexText (leafHash H (utf8 u.text)).bytes
  let subRoot := str (tree.rootHex H)
  let compressed := (tree.prove H key).compressed
  let path := servedPath 4 (σ.leaves.topSiblings H 4)
  let proof := contractStateProof contractIndex stateKey u.text key leaf subRoot compressed path
  have hnames : (contractState contractIndex stateKey).Names proof :=
    ⟨Js.toText_str _, Js.toText_str _⟩
  have hstate : stateValue proof = some u.text := congrArg some (Js.toText_str _)
  have hpass : (verifyContractStateProof H proof (hexText (σ.leaves.root H)) chain network
      undefined).verified = true := by
    refine verifyContractStateProof_verified_iff.2 ⟨rfl, rfl, slotChecks_pass_iff.2
      ⟨leafValueCheck_eq_pass_iff.2 (.inr ⟨_, hstate, rfl, lowerHex_hexText H _⟩), key, ?_,
        lowerHex_hexText H _, hproof, hslot, hbind⟩⟩
    rw [← hkey, ← proofKey_of_names hnames]
    rfl
  refine ⟨leaf, subRoot, compressed, path, Set.union_subset ?_ (Set.union_subset ?_ htop), ?_⟩
  · rintro x ⟨-, v, hv, rfl⟩
    cases hstate.symm.trans hv
    exact hend
  · exact fun x hx => hin x (List.mem_append_right _ (hsmt hx))
  · change StateReport.mk (verifyContractStateProof H proof _ chain network undefined).verified
      _ = _
    rw [hpass, stateValue_of_verified hpass, hstate]

end StateQuery

end XChainSdk
