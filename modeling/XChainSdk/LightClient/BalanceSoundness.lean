import Mathlib
import XChainSdk.LightClient.BoundLeaf

/-!
# Soundness of balance proofs

* `AmountMap`, `BalanceState` : committed amounts, next to the other sub-trees of the state.
* `amountChecks_sound` : **what a passed amount proof shows**, up to the reading of an array leaf.
* `verifyBalanceProof_sound_iff` : **exactly when no served proof can lie** about a balance.
-/

namespace XChainSdk

open Hash Js HashTree

/-- The canonical zero. -/
def zeroAmount : String := "0.000000000000000000"

theorem canonicalAmount_zero : canonicalAmount "0" = some zeroAmount := by decide

/-- Amounts under keys: canonical and never zero, since a zero is deleted. -/
structure AmountMap where
  entries : List (Digest × String)
  nodup : (entries.map Prod.fst).Nodup
  canonical : ∀ e ∈ entries, canonicalAmount e.2 = some e.2
  ne_zero : ∀ e ∈ entries, e.2 ≠ zeroAmount

namespace AmountMap

variable (m : AmountMap) (key : Digest)

/-- The amount committed at a key. -/
def get : Option String := m.entries.lookup key

/-- The amount that a correct proof reports. -/
def amountAt : String := (m.get key).getD zeroAmount

/-- The leaves `amountLeaf(amount)`, as the texts they hash. -/
def leafMap : LeafMap where
  entries := m.entries.map fun e => (e.1, utf8 e.2)
  nodup := by simpa [List.map_map, Function.comp_def] using m.nodup

theorem mem_entries_of_get {a : String} (h : m.get key = some a) : (key, a) ∈ m.entries := by
  obtain ⟨l₁, l₂, hl, -⟩ := List.lookup_eq_some_iff.1 h
  rw [hl]
  simp

theorem amountAt_eq_zero_iff : m.amountAt key = zeroAmount ↔ m.get key = none := by
  rw [amountAt]
  cases hget : m.get key with
  | none => simp
  | some a => simpa using m.ne_zero _ (m.mem_entries_of_get key hget)

theorem endPreimage_leafMap : m.leafMap.endPreimage key =
    ((m.get key).map amountLeafPreimage).getD emptyLeafPreimage := by
  rw [LeafMap.endPreimage, LeafMap.get, leafMap, Loop.lookup_map_snd, get]
  cases m.entries.lookup key <;> rfl

end AmountMap

/-- A committed state: the amounts of `balances_root` and arbitrary other sub-trees. -/
structure BalanceState where
  balances : AmountMap
  other : LeafState

/-- The leaves of every sub-tree. -/
def BalanceState.leaves (σ : BalanceState) : LeafState := fun name =>
  if name = "balances_root" then σ.balances.leafMap else σ.other name

theorem amountLeafPreimage_injective : Function.Injective amountLeafPreimage := fun _ _ h =>
  utf8_injective (List.cons.inj h).2

/-- The byte strings that checking an amount proof hashes. -/
def amountProofHashed (H : Host) (key : Digest) (proof : Js) : Set Bytes :=
  let smt := proof.field "smt_proof"
  {x | (smt.field "leaf_value").isNullish = false ∧
      ∃ a, canonicalAmountJs (proof.field "amount") = some a ∧ x = amountLeafPreimage a} ∪
    boundHashed H key (smt.field "leaf_value") (smt.field "compressed")
      (proof.field "balances_root") (proof.field "sub_root_path")

/-- What the leaf of a passed proof claims. -/
def ClaimsAmount (H : Host) (leaf : Js) (amount : String) : Prop :=
  leaf.isNullish = true ∧ amount = zeroAmount ∨
    leaf.isNullish = false ∧ lowerHex H leaf = toHex (leafHash H (utf8 amount)).bytes

theorem leafAmountCheck_eq_pass_iff {H : Host} {leaf amount : Js} :
    leafAmountCheck H leaf amount = some none ↔
      ∃ a, canonicalAmountJs amount = some a ∧ ClaimsAmount H leaf a := by
  cases ha : canonicalAmountJs amount with
  | none => simp [leafAmountCheck, ha]
  | some a =>
    have hself : canonicalAmount a = some a := by
      obtain ⟨s, -, hs⟩ := Option.bind_eq_some_iff.1 ha
      exact canonicalAmount_canonicalAmount hs
    cases hnull : leaf.isNullish with
    | true => simp [leafAmountCheck, ha, hnull, canonicalAmount_zero, ClaimsAmount]
    | false => simp [leafAmountCheck, ha, hnull, amountLeaf, hself, ClaimsAmount, eq_comm]

/-- What it takes for the checks around a leaf to pass. -/
theorem slotChecks_pass_iff {H : Host} {name : String} {proof root : Js} {keyBuf : Option Digest}
    {leafCheck : Check} :
    (∀ c ∈ slotChecks H name proof root keyBuf leafCheck, c = some none) ↔
      leafCheck = some none ∧ ∃ key, keyBuf = some key ∧
        lowerHex H ((proof.field "smt_proof").field "key") = toHex key.bytes ∧
        verifyCompressedSmtProof H (proof.field name) key
          ((proof.field "smt_proof").field "leaf_value")
          ((proof.field "smt_proof").field "compressed") = some true ∧
        otherSlot ((proof.field "sub_root_path").field "index") name = false ∧
        subRootBinds H root (proof.field name) (proof.field "sub_root_path") = some true := by
  simp only [slotChecks, List.mem_cons, List.not_mem_nil, or_false, forall_eq_or_imp, forall_eq,
    refuse_eq_pass_iff]
  constructor
  · rintro ⟨hkey, hleaf, hproof, hslot, hbind⟩
    obtain ⟨key, rfl, hkey⟩ := Option.map_eq_some_iff.1 hkey
    rw [Option.bind_eq_bind, Option.bind_some] at hproof
    obtain ⟨ok, hok, hnot⟩ := Option.bind_eq_some_iff.1 hproof
    obtain ⟨bound, hbound, hbnot⟩ := Option.map_eq_some_iff.1 hbind
    refine ⟨hleaf, key, rfl, by simpa using hkey, ?_, by simpa using hslot, ?_⟩
    · rw [hok]
      simpa using hnot
    · rw [hbound]
      simpa using hbnot
  · rintro ⟨hleaf, key, rfl, hkey, hproof, hslot, hbind⟩
    refine ⟨by simp [hkey], hleaf, ?_, by simp [hslot], by simp [hbind]⟩
    simp [hproof]

/-- What it takes for the checks of an amount proof to pass. -/
theorem amountChecks_pass_iff {H : Host} {proof root : Js} {keyBuf : Option Digest} :
    (∀ c ∈ amountChecks H proof root keyBuf, c = some none) ↔
      ∃ key a, keyBuf = some key ∧
        lowerHex H ((proof.field "smt_proof").field "key") = toHex key.bytes ∧
        canonicalAmountJs (proof.field "amount") = some a ∧
        ClaimsAmount H ((proof.field "smt_proof").field "leaf_value") a ∧
        verifyCompressedSmtProof H (proof.field "balances_root") key
          ((proof.field "smt_proof").field "leaf_value")
          ((proof.field "smt_proof").field "compressed") = some true ∧
        otherSlot ((proof.field "sub_root_path").field "index") "balances_root" = false ∧
        subRootBinds H root (proof.field "balances_root") (proof.field "sub_root_path") =
          some true := by
  rw [amountChecks, slotChecks_pass_iff, leafAmountCheck_eq_pass_iff]
  constructor
  · rintro ⟨⟨a, ha, hclaim⟩, key, hkeyBuf, hkey, hrest⟩
    exact ⟨key, a, hkeyBuf, hkey, ha, hclaim, hrest⟩
  · rintro ⟨key, a, hkeyBuf, hkey, ha, hclaim, hrest⟩
    exact ⟨⟨a, ha, hclaim⟩, key, hkeyBuf, hkey, hrest⟩

/-- What the leaf of a proof claims to be stored: nothing, or a text by its leaf hash. -/
def ClaimsValue (H : Host) (leaf : Js) (val : Option String) : Prop :=
  leaf.isNullish = true ∧ val = none ∨
    ∃ v, val = some v ∧ leaf.isNullish = false ∧
      lowerHex H leaf = toHex (leafHash H (utf8 v)).bytes

/-- **A bound value is the committed one**, unless its leaf is a one-element array whose byte is
reached on the key's path. -/
theorem bound_value {H : Host} {σ : LeafState} (slot : ℕ) (name : String) {S : Set Bytes}
    (hS : CollisionFree H.sha256 S) (hσ : ∀ x ∈ σ.hashed H, x ∈ S)
    (hname : STATE_SUBTREES[slot]? = some name) (hslot : STATE_SUBTREES.idxOf name = slot)
    {key : Digest} {stored val : Option String} {leaf compressed subRoot path : Js}
    (hend : (σ name).endPreimage key = (stored.map amountLeafPreimage).getD emptyLeafPreimage)
    (hin : boundHashed H key leaf compressed subRoot path ⊆ S)
    (hvalIn : ∀ v, val = some v → leaf.isNullish = false → amountLeafPreimage v ∈ S)
    (hclaim : ClaimsValue H leaf val)
    (hproof : verifyCompressedSmtProof H subRoot key leaf compressed = some true)
    (hindex : otherSlot (path.field "index") name = false)
    (hbind : subRootBinds H (hexText (σ.root H)) subRoot path = some true) :
    val = stored ∨
      ∃ x β, leaf = arr [x] ∧ toUint8 x = some β ∧ σ.ReachesByte H slot key β := by
  rcases hclaim with ⟨hnull, rfl⟩ | ⟨v, rfl, hnull, htext⟩
  · have hempty : emptyLeafPreimage ∈ σ.hashed H :=
      List.mem_append_left _ (List.mem_flatMap.2 ⟨"balances_root", .head _,
        List.mem_append_right _ (emptyLeafPreimage_mem_hashed H _)⟩)
    refine (bound_leaf slot name hS hσ hname hslot hin
      ⟨by simp [leafDomain, emptyLeafPreimage], hσ _ hempty⟩
      (.inl ⟨hnull, rfl⟩) hproof hindex hbind).imp (fun h => ?_) id
    rw [hend] at h
    cases stored with
    | none => rfl
    | some w => exact absurd h (by simp [emptyLeafPreimage, amountLeafPreimage])
  · refine (bound_leaf slot name hS hσ hname hslot hin (y := amountLeafPreimage v)
      ⟨by simp [leafDomain, amountLeafPreimage], hvalIn v rfl hnull⟩
      (.inr ⟨hnull, htext⟩) hproof hindex hbind).imp (fun h => ?_) id
    rw [hend] at h
    cases stored with
    | none => exact absurd h (by simp [emptyLeafPreimage, amountLeafPreimage])
    | some w => rw [amountLeafPreimage_injective h]

/-- **What a passed amount proof shows**: its amount is the committed one, unless its leaf is a
one-element array whose byte is reached on the key's path. -/
theorem amountChecks_sound {H : Host} {σ : BalanceState} {proof : Js} {key : Digest} {a : String}
    (hS : CollisionFree H.sha256 ({x | x ∈ σ.leaves.hashed H} ∪ amountProofHashed H key proof))
    (ha : canonicalAmountJs (proof.field "amount") = some a)
    (hpass : ∀ c ∈ amountChecks H proof (hexText (σ.leaves.root H)) (some key), c = some none) :
    a = σ.balances.amountAt key ∨
      ∃ x β, (proof.field "smt_proof").field "leaf_value" = arr [x] ∧ toUint8 x = some β ∧
        σ.leaves.ReachesByte H 0 key β := by
  obtain ⟨key', a', hkey', -, ha', hclaim, hproof, hslot, hbind⟩ := amountChecks_pass_iff.1 hpass
  cases hkey'
  cases ha.symm.trans ha'
  have hend := σ.balances.endPreimage_leafMap key
  rcases hclaim with ⟨hnull, rfl⟩ | ⟨hnull, htext⟩
  · refine (bound_value 0 "balances_root" hS (fun x hx => .inl hx) rfl rfl hend
      (fun x hx => .inr (.inr hx)) (fun v hv => ?_) (.inl ⟨hnull, rfl⟩) hproof hslot
      hbind).imp (fun h => ?_) id
    · cases hv
    · rw [AmountMap.amountAt, ← h]
      rfl
  · refine (bound_value 0 "balances_root" hS (fun x hx => .inl hx) rfl rfl hend
      (fun x hx => .inr (.inr hx)) (fun v hv hnull => ?_) (.inr ⟨a, rfl, hnull, htext⟩) hproof hslot
      hbind).imp (fun h => ?_) id
    · cases hv
      exact .inr (.inl ⟨hnull, a, ha, rfl⟩)
    · rw [AmountMap.amountAt, ← h]
      rfl

/-! ### Balance proofs -/

/-- A verified balance proof for the address and the tick reports what the state commits under
their key, and it reports zero exactly where no leaf is committed. -/
def ReportsCommitted (H : Host) (σ : BalanceState) (chain network : Js) (address tick : String)
    (key : Digest) : Prop :=
  ∀ proof expected : Js, (proof.field "address").toText = address →
    (proof.field "tick").toText = tick →
    CollisionFree H.sha256 ({x | x ∈ σ.leaves.hashed H} ∪ amountProofHashed H key proof) →
    (verifyBalanceProof H proof (hexText (σ.leaves.root H)) chain network expected).verified =
      true →
    ∃ a, (verifyBalanceProof H proof (hexText (σ.leaves.root H)) chain network expected).amount =
        some a ∧ a = σ.balances.amountAt key ∧ (a = zeroAmount ↔ σ.balances.get key = none)

/-- Some one-element array has the text of the leaf hash of `amount` and a byte that the key's path
reaches. -/
def Forgeable (H : Host) (σ : BalanceState) (key : Digest) (amount : String) : Prop :=
  ∃ x β, lowerHex H (arr [x]) = toHex (leafHash H (utf8 amount)).bytes ∧ toUint8 x = some β ∧
    σ.leaves.ReachesByte H 0 key β

/-- The amount of a passed proof is the committed one, or it is forgeable. -/
theorem amountChecks_report {H : Host} {σ : BalanceState} {proof : Js} {key : Digest}
    (hS : CollisionFree H.sha256 ({x | x ∈ σ.leaves.hashed H} ∪ amountProofHashed H key proof))
    (hpass : ∀ c ∈ amountChecks H proof (hexText (σ.leaves.root H)) (some key), c = some none) :
    ∃ a, canonicalAmountJs (proof.field "amount") = some a ∧ canonicalAmount a = some a ∧
      (a = σ.balances.amountAt key ∨
        amountLeafPreimage a ∈ amountProofHashed H key proof ∧ Forgeable H σ key a) := by
  obtain ⟨-, a, -, -, ha, hclaim, -⟩ := amountChecks_pass_iff.1 hpass
  have hself : canonicalAmount a = some a := by
    obtain ⟨s, -, hs⟩ := Option.bind_eq_some_iff.1 ha
    exact canonicalAmount_canonicalAmount hs
  refine ⟨a, ha, hself, (amountChecks_sound hS ha hpass).imp id ?_⟩
  rintro ⟨x, β, hleaf, hβ, hreach⟩
  rcases hclaim with ⟨hnull, -⟩ | ⟨hnull, htext⟩
  · rw [hleaf] at hnull
    cases hnull
  · exact ⟨.inl ⟨hnull, a, ha, rfl⟩, x, β, hleaf ▸ htext, hβ, hreach⟩

theorem verifyBalanceProof_verified_iff {H : Host} {proof root chain network expected : Js} :
    (verifyBalanceProof H proof root chain network expected).verified = true ↔
      malformedProof proof "smt_proof" = false ∧ identityMismatch expected proof = some false ∧
        ∀ c ∈ amountChecks H proof root (proofBalanceKey H chain network proof), c = some none := by
  rw [verifyBalanceProof, verified_verdictOf_iff, List.forall_mem_append]
  simp [and_assoc]

/-- A served amount proof. -/
def amountProof (address tick amount : String) (key : Digest) (leaf subRoot compressed path : Js) :
    Js :=
  obj [("address", str address), ("tick", str tick), ("amount", str amount),
    ("balances_root", subRoot),
    ("smt_proof", obj [("key", hexText key.bytes), ("leaf_value", leaf),
      ("compressed", compressed)]),
    ("sub_root_path", path)]

theorem keyFields_amountProof (chain network : Js) (address tick amount : String) (key : Digest)
    (leaf subRoot compressed path : Js) :
    keyFields chain network (amountProof address tick amount key leaf subRoot compressed path) =
      (chain.toText, network.toText, address, tick) := by
  have haddress : ((amountProof address tick amount key leaf subRoot compressed path).field
    "address").toText = address := Js.toText_str _
  have htick : ((amountProof address tick amount key leaf subRoot compressed path).field
    "tick").toText = tick := Js.toText_str _
  rw [keyFields, haddress, htick]

/-- A forgeable amount is reported by some verified proof. -/
theorem exists_verified_of_forgeable {H : Host} {σ : BalanceState} {chain network : Js}
    {address tick amount : String} {key : Digest}
    (hkey : balanceKey H chain.toText network.toText address tick = some key)
    (hamount : canonicalAmount amount = some amount) (hforge : Forgeable H σ key amount) :
    ∃ proof, (proof.field "address").toText = address ∧ (proof.field "tick").toText = tick ∧
      amountProofHashed H key proof ⊆
        insert (amountLeafPreimage amount) {x | x ∈ σ.leaves.hashed H} ∧
      verifyBalanceProof H proof (hexText (σ.leaves.root H)) chain network undefined =
        ⟨true, some amount, none⟩ := by
  obtain ⟨x, β, htext, hβ, hreach⟩ := hforge
  obtain ⟨subRoot, top, compressed, hproof, hslot, hbind, hhashed⟩ :=
    exists_forged_proof 0 "balances_root" rfl hβ hreach
  refine ⟨amountProof address tick amount key (arr [x]) (hexText subRoot) compressed
    (servedPath 0 top), Js.toText_str _, Js.toText_str _, ?_, ?_⟩
  · refine Set.union_subset ?_ fun y hy => .inr (hhashed hy)
    rintro y ⟨-, a, ha, rfl⟩
    cases hamount.symm.trans ha
    exact .inl rfl
  · have hpass : (verifyBalanceProof H
        (amountProof address tick amount key (arr [x]) (hexText subRoot) compressed
          (servedPath 0 top))
        (hexText (σ.leaves.root H)) chain network undefined).verified = true := by
      refine verifyBalanceProof_verified_iff.2 ⟨rfl, rfl, amountChecks_pass_iff.2
        ⟨key, amount, ?_, lowerHex_hexText H _, hamount, .inr ⟨rfl, htext⟩, hproof, hslot, hbind⟩⟩
      rw [proofBalanceKey, keyFields_amountProof]
      exact hkey
    rw [verifyBalanceProof] at hpass ⊢
    rw [verdictOf_of_verified hpass]
    exact congrArg (fun a => ProofVerdict.mk true a none) hamount

/-- **Soundness of balance proofs, with its exact condition.**  For every committed state, every
address and tick: all verified proofs for them report the committed amount if and only if no wrong
amount is forgeable, that is, its leaf hash as the text of a one-element array does not stand for a
byte that the key's path reaches. -/
theorem verifyBalanceProof_sound_iff (H : Host) (σ : BalanceState) (chain network : Js)
    (address tick : String) (key : Digest)
    (hkey : balanceKey H chain.toText network.toText address tick = some key) :
    ReportsCommitted H σ chain network address tick key ↔
      ∀ amount, canonicalAmount amount = some amount →
        CollisionFree H.sha256 (insert (amountLeafPreimage amount) {x | x ∈ σ.leaves.hashed H}) →
        amount ≠ σ.balances.amountAt key → ¬ Forgeable H σ key amount := by
  constructor
  · intro hreports amount hamount hS hne hforge
    obtain ⟨proof, haddress, htick, hhashed, hverdict⟩ :=
      exists_verified_of_forgeable hkey hamount hforge
    obtain ⟨a, ha, hcommitted, -⟩ := hreports proof undefined haddress htick
      (hS.mono (Set.union_subset (fun x hx => .inr hx) hhashed)) (by rw [hverdict])
    rw [hverdict] at ha
    cases ha
    exact hne hcommitted
  · intro hno proof expected haddress htick hS hverified
    obtain ⟨-, -, hpass⟩ := verifyBalanceProof_verified_iff.1 hverified
    have hproofKey : proofBalanceKey H chain network proof = some key := by
      simp only [proofBalanceKey, keyFields, haddress, htick, hkey]
    rw [hproofKey] at hpass
    obtain ⟨a, ha, hself, hreport⟩ := amountChecks_report hS hpass
    have hcommitted : a = σ.balances.amountAt key := by
      rcases hreport with h | ⟨hin, hforge⟩
      · exact h
      · by_contra hne
        exact hno a hself (hS.mono (Set.insert_subset (.inr hin) fun y hy => .inl hy)) hne hforge
    refine ⟨a, ?_, hcommitted, ?_⟩
    · rw [verifyBalanceProof] at hverified ⊢
      rw [verdictOf_of_verified hverified, ha]
    · rw [hcommitted]
      exact σ.balances.amountAt_eq_zero_iff key

/-! ### A balance that can be forged -/

/-- The committed amount. -/
def sampleAmount : String := "1.000000000000000000"

/-- The amount that a forged proof reports. -/
def forgedAmount : String := "5.000000000000000000"

/-- The key of the balance. -/
def sampleKey : Digest := ⟨153 :: List.replicate 31 0, rfl⟩

/-- A state with one balance. -/
def sampleBalances : BalanceState where
  balances :=
    { entries := [(sampleKey, sampleAmount)]
      nodup := List.nodup_singleton _
      canonical := by decide
      ne_zero := by decide }
  other _ := ⟨[], List.nodup_nil⟩

/-- The numbers of its nodes. -/
def balanceLedger : Ledger where
  key _ := sampleKey
  text k := if k = 959 then utf8 sampleAmount else utf8 forgedAmount
  top := [(959257, 959256, 256), (500000257, 256, 0), (959258, 959257, 257),
    (1000000258, 500000257, 1), (1015344259, 959258, 1000000258)]

theorem byteSum_sampleAmount : byteSum (utf8 sampleAmount) = 959 := by decide

theorem byteSum_forgedAmount : byteSum (utf8 forgedAmount) = 963 := by decide

theorem balanceKey_sampleKey : balanceKey sampleHost "BTC" "regtest" "alice" "GAS" =
    some sampleKey := by
  decide

theorem leafHash_sampleAmount : leafHash sampleHost (utf8 sampleAmount) =
    sampleDigest (1000 * 959) := by
  rw [← byteSum_sampleAmount]
  rfl

theorem balanceLedger_separate {n : ℕ} (h : n ≤ 256 ∨ 959000 ≤ n ∧ n ≤ 959256 ∨ n = 963000) :
    balanceLedger.Separate n := by
  have hne : n ≠ 959257 ∧ n ≠ 500000257 ∧ n ≠ 959258 ∧ n ≠ 1000000258 ∧ n ≠ 1015344259 := by
    omega
  obtain ⟨h1, h2, h3, h4, h5⟩ := hne
  simp [Ledger.Separate, balanceLedger, Loop.lookup_cons, h1, h2, h3, h4, h5]

/-- The only leaf of the tree of balances. -/
theorem leaves_sampleBalances :
    (sampleBalances.balances.leafMap.tree sampleHost).leaves =
      [(balanceLedger.key 959, sampleDigest (1000 * 959))] := by
  rw [← leafHash_sampleAmount]
  rfl

theorem readsBack_sampleBalances {x : Bytes} (hx : x ∈ sampleBalances.leaves.hashed sampleHost) :
    ReadsBack balanceLedger x := by
  have hsep : ∀ n ≤ 256, balanceLedger.Separate n := fun n hn => balanceLedger_separate (.inl hn)
  obtain ⟨hroot, hnodes⟩ := samplePreimage_singleton (L := balanceLedger) (k := 959) (by decide)
    (by decide) le_rfl fun h hh => balanceLedger_separate (.inr (.inl (by omega)))
  rw [← leaves_sampleBalances] at hroot hnodes
  have hx : x ∈ (singleState "balances_root" sampleBalances.balances.leafMap).hashed sampleHost := hx
  refine readsBack_singleState hroot hsep (fun e he => ?_) hnodes (fun p hp => ?_) hx
  · have he : e = (sampleKey, utf8 sampleAmount) := List.mem_singleton.1 he
    rw [he]
    refine readsBack_leaf ?_ ?_ ?_ ?_ <;> rw [byteSum_sampleAmount]
    · rfl
    · decide
    · decide
    · exact balanceLedger_separate (.inr (.inl (by decide)))
  · have hpairs : topPairs (slotNumber "balances_root" (1000 * 959 + 256)) =
        [(959256, 256), (256, 256), (256, 0), (0, 0), (959257, 257), (500000257, 1),
          (959258, 1000000258)] := by decide
    rw [hpairs] at hp
    simp only [List.mem_cons, List.not_mem_nil, or_false] at hp
    rcases hp with rfl | rfl | rfl | rfl | rfl | rfl | rfl <;> refine ⟨by decide, by decide, ?_⟩
    · exact readsBack_top (by decide) (by decide) (by decide) (by decide)
    · exact readsBack_emptyPair (by simp [Ledger.Separate, balanceLedger, Loop.lookup_cons])
        (by decide)
    · exact readsBack_top (by decide) (by decide) (by decide) (by decide)
    · exact readsBack_emptyPair (hsep 1 (by decide)) (by decide)
    · exact readsBack_top (by decide) (by decide) (by decide) (by decide)
    · exact readsBack_top (by decide) (by decide) (by decide) (by decide)
    · exact readsBack_top (by decide) (by decide) (by decide) (by decide)

theorem collisionFree_sampleBalances : CollisionFree sampleHost.sha256
    (insert (amountLeafPreimage forgedAmount) {x | x ∈ sampleBalances.leaves.hashed sampleHost}) :=
  collisionFree_of_readsBack balanceLedger fun x hx => by
    rcases hx with rfl | hx
    · refine readsBack_leaf ?_ ?_ ?_ ?_ <;> rw [byteSum_forgedAmount]
      · rfl
      · decide
      · decide
      · exact balanceLedger_separate (.inr (.inr rfl))
    · exact readsBack_sampleBalances hx

/-- The stored leaf begins with a zero byte, and the forged leaf hash is no number. -/
theorem forgeable_forgedAmount : Forgeable sampleHost sampleBalances sampleKey forgedAmount := by
  have hleaf : leafHash sampleHost (utf8 forgedAmount) = sampleDigest 963000 := by
    rw [show 963000 = 1000 * byteSum (utf8 forgedAmount) by rw [byteSum_forgedAmount]]
    rfl
  have hstored : sampleBalances.balances.get sampleKey = some sampleAmount := rfl
  refine ⟨hexText (sampleDigest 963000).bytes, 0, ?_, by decide, 3,
    .leaf ((sampleBalances.balances.leafMap.tree sampleHost).endLeaf sampleHost sampleKey),
    ?_, ?_⟩
  · rw [hleaf, ← lowerHex_hexText sampleHost]
    simp [lowerHex, Js.elemText, Js.toText, Js.joinTexts, Js.isNullish, hexText]
  · rw [DigestTree.follow_append (LeafState.follow_slotDirs sampleHost _ (by decide)),
      LeafState.slotTree_of_getElem? sampleHost _ (show _ = some "balances_root" from rfl),
      SparseMerkleTree.follow_keyBits]
    rfl
  · change outerByte _ ((sampleBalances.balances.leafMap.tree sampleHost).endLeaf sampleHost
      sampleKey) = 0
    rw [LeafMap.endLeaf_eq, AmountMap.endPreimage_leafMap, hstored]
    change outerByte (keyBit sampleKey 255) (leafHash sampleHost (utf8 sampleAmount)) = 0
    rw [leafHash_sampleAmount]
    decide

/-- **A verified proof reports 5 where 1 is committed.**  Its leaf is the array of the text of the
leaf hash of 5, which `toBuf` reads as the zero byte that the stored leaf begins with. -/
theorem verifyBalanceProof_forged :
    sampleBalances.balances.get sampleKey = some sampleAmount ∧
      ¬ ReportsCommitted sampleHost sampleBalances (str "BTC") (str "regtest") "alice" "GAS"
        sampleKey := by
  refine ⟨rfl, fun hreports => ?_⟩
  have hkey : balanceKey sampleHost (str "BTC").toText (str "regtest").toText "alice" "GAS" =
      some sampleKey := by simpa using balanceKey_sampleKey
  obtain ⟨proof, haddress, htick, hhashed, hverdict⟩ :=
    exists_verified_of_forgeable hkey (by decide) forgeable_forgedAmount
  obtain ⟨a, ha, hcommitted, -⟩ := hreports proof undefined haddress htick
    (collisionFree_sampleBalances.mono (Set.union_subset (fun x hx => .inr hx) hhashed))
    (by rw [hverdict])
  rw [hverdict] at ha
  cases ha
  exact absurd hcommitted (by decide)

/-- `verifyBalanceProof_sound_iff` at this balance. -/
theorem verifyBalanceProof_sound_iff_sampleBalances :
    balanceKey sampleHost "BTC" "regtest" "alice" "GAS" = some sampleKey ∧
      (ReportsCommitted sampleHost sampleBalances (str "BTC") (str "regtest") "alice" "GAS"
          sampleKey ↔
        ∀ amount, canonicalAmount amount = some amount →
          CollisionFree sampleHost.sha256 (insert (amountLeafPreimage amount)
            {x | x ∈ sampleBalances.leaves.hashed sampleHost}) →
          amount ≠ sampleBalances.balances.amountAt sampleKey →
          ¬ Forgeable sampleHost sampleBalances sampleKey amount) :=
  ⟨balanceKey_sampleKey, verifyBalanceProof_sound_iff sampleHost sampleBalances (str "BTC")
    (str "regtest") "alice" "GAS" sampleKey (by simpa using balanceKey_sampleKey)⟩

end XChainSdk
