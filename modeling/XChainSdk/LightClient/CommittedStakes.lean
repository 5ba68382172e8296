import XChainSdk.LightClient.BoundLeaf
import XChainSdk.LightClient.Agreement
import Mathlib.Algebra.BigOperators.Field

/-!
# Committed stakes

* `StakeTable` : registrations, with one weight for each source of a capability.
* `CommittedStakes` : a stakes sub-tree whose leaves are the members and totals of a table.
* `StakeClaim` : what one row or the total of a served validator set claims about a leaf.
* `StakeClaim.committed` : **a claim that passes is committed**, unless its leaf is a one-element
  array that stands for a byte on the path of its key.
-/

namespace XChainSdk

open Hash Js HashTree

/-! ### Leaf texts -/

/-- The text of `stakeMemberLeaf`. -/
def stakeMemberText (source : String) (weight : Js) : Option Bytes := do
  joinFields ["STK", source, ← canonicalAmountJs weight]

/-- The text of `stakeTotalLeaf`. -/
def stakeTotalText (total : Js) : Option Bytes := do
  joinFields ["STKTOTAL", ← canonicalAmountJs total]

theorem stakeMemberLeaf_eq (H : Host) (source : String) (weight : Js) :
    stakeMemberLeaf H source weight = (stakeMemberText source weight).map (leafHash H) := by
  cases hw : canonicalAmountJs weight with
  | none => simp [stakeMemberLeaf, stakeMemberText, hw]
  | some w =>
    simp only [stakeMemberLeaf, stakeMemberText, hw, Option.bind_eq_bind, Option.bind_some]
    cases joinFields ["STK", source, w] <;> rfl

theorem stakeTotalLeaf_eq (H : Host) (total : Js) :
    stakeTotalLeaf H total = (stakeTotalText total).map (leafHash H) := by
  cases ht : canonicalAmountJs total with
  | none => simp [stakeTotalLeaf, stakeTotalText, ht]
  | some t =>
    simp only [stakeTotalLeaf, stakeTotalText, ht, Option.bind_eq_bind, Option.bind_some]
    cases joinFields ["STKTOTAL", t] <;> rfl

theorem stakeMemberText_eq_some {source : String} {weight : Js} {text : Bytes} :
    stakeMemberText source weight = some text ↔
      ∃ w, canonicalAmountJs weight = some w ∧ joinFields ["STK", source, w] = some text :=
  Option.bind_eq_some_iff

theorem stakeTotalText_eq_some {total : Js} {text : Bytes} :
    stakeTotalText total = some text ↔
      ∃ t, canonicalAmountJs total = some t ∧ joinFields ["STKTOTAL", t] = some text :=
  Option.bind_eq_some_iff

/-- A member and a total never share a leaf text. -/
theorem stakeMemberText_ne_stakeTotalText {source : String} {weight total : Js} {text : Bytes}
    (hm : stakeMemberText source weight = some text) : stakeTotalText total ≠ some text := by
  intro ht
  obtain ⟨w, -, hw⟩ := stakeMemberText_eq_some.1 hm
  obtain ⟨t, -, ht⟩ := stakeTotalText_eq_some.1 ht
  have := joinFields_inj (by simp) (by simp) hw ht
  simp at this

/-- Equal canonical amounts have equal units. -/
theorem amountUnits_of_canonicalAmountJs {x : Js} {w : String} (h : canonicalAmountJs x = some w) :
    amountUnits x.toText = amountUnits w := by
  obtain ⟨s, hs, hw⟩ := Option.bind_eq_some_iff.1 h
  cases x with
  | str t =>
    cases hs
    rw [toText_str, amountUnits_canonicalAmount hw]
  | _ => cases hs

theorem units_of_stakeMemberText {source source' : String} {weight weight' : Js} {text : Bytes}
    (h : stakeMemberText source weight = some text)
    (h' : stakeMemberText source' weight' = some text) :
    source = source' ∧ amountUnits weight.toText = amountUnits weight'.toText := by
  obtain ⟨w, hw, hj⟩ := stakeMemberText_eq_some.1 h
  obtain ⟨w', hw', hj'⟩ := stakeMemberText_eq_some.1 h'
  have := joinFields_inj (by simp) (by simp) hj hj'
  simp only [List.cons.injEq, and_true, true_and] at this
  obtain ⟨rfl, rfl⟩ := this
  exact ⟨rfl, by rw [amountUnits_of_canonicalAmountJs hw, amountUnits_of_canonicalAmountJs hw']⟩

theorem units_of_stakeTotalText {total total' : Js} {text : Bytes}
    (h : stakeTotalText total = some text) (h' : stakeTotalText total' = some text) :
    amountUnits total.toText = amountUnits total'.toText := by
  obtain ⟨t, ht, hj⟩ := stakeTotalText_eq_some.1 h
  obtain ⟨t', ht', hj'⟩ := stakeTotalText_eq_some.1 h'
  have := joinFields_inj (by simp) (by simp) hj hj'
  simp only [List.cons.injEq, and_true, true_and] at this
  cases this
  rw [amountUnits_of_canonicalAmountJs ht, amountUnits_of_canonicalAmountJs ht']

/-! ### The table -/

/-- A validator that is registered for a capability. -/
structure StakeRow where
  capability : String
  pubkey : String
  source : String
  deriving DecidableEq

/-- Registrations, with one weight for each source of a capability. -/
structure StakeTable where
  rows : List StakeRow
  weight : String → String → String
  weight_isSome : ∀ cap source, (amountUnits (weight cap source)).isSome

namespace StakeTable

variable (T : StakeTable) (cap : String)

/-- The distinct sources of a capability. -/
def sourceList : List String := ((T.rows.filter (·.capability = cap)).map StakeRow.source).dedup

/-- The distinct sources of a capability, as a set. -/
def sources : Finset String := (T.sourceList cap).toFinset

/-- The stake of a source. -/
def stake (source : String) : ℚ := ((amountUnits (T.weight cap source)).getD 0 : ℕ) / 10 ^ 18

/-- The total stake over distinct sources. -/
def totalStake : ℚ := ∑ s ∈ T.sources cap, T.stake cap s

/-- The text of the total, as the producers sum it. -/
def totalText : Option String := sumCanonicalAmounts ((T.sourceList cap).map (T.weight cap))

/-- Decimals up to three times the total. -/
def sums : Set ℚ := {q | (∃ n : ℕ, q = n / 10 ^ 18) ∧ q ≤ 3 * T.totalStake cap}

/-- The sources with a registered pubkey that the list carries a good signature of. -/
def signingSources (H : Host) (canonical : String) (sigs : List Js) : Finset String :=
  ((T.rows.filter fun r => r.capability = cap ∧
    ∃ e ∈ sigs, SignedBy H canonical e (H.toLowerCase r.pubkey)).map StakeRow.source).toFinset

variable {T cap}

theorem mem_signingSources {H : Host} {canonical s : String} {sigs : List Js} :
    s ∈ T.signingSources cap H canonical sigs ↔
      ∃ r ∈ T.rows, r.capability = cap ∧ r.source = s ∧
        ∃ e ∈ sigs, SignedBy H canonical e (H.toLowerCase r.pubkey) := by
  simp only [signingSources, List.mem_toFinset, List.mem_map, List.mem_filter, decide_eq_true_eq]
  refine exists_congr fun r => ?_
  tauto

theorem mem_sources {s : String} :
    s ∈ T.sources cap ↔ ∃ r ∈ T.rows, r.capability = cap ∧ r.source = s := by
  simp [sources, sourceList, and_assoc]

theorem stake_nonneg (s : String) : 0 ≤ T.stake cap s := by
  unfold stake
  positivity

theorem exists_units_sum (A : Finset String) :
    ∃ n : ℕ, ∑ s ∈ A, T.stake cap s = n / 10 ^ 18 := by
  refine ⟨∑ s ∈ A, (amountUnits (T.weight cap s)).getD 0, ?_⟩
  push_cast
  rw [Finset.sum_div]
  rfl

/-- The committed total spells the total stake. -/
theorem amountUnits_totalText {t : String} (h : T.totalText cap = some t) :
    ∃ u, amountUnits t = some u ∧ (u : ℚ) / 10 ^ 18 = T.totalStake cap := by
  have hgen : ∀ ss : List String, ∃ us, (ss.map (T.weight cap)).mapM amountUnits = some us ∧
      (us.sum : ℚ) / 10 ^ 18 = (ss.map (T.stake cap)).sum := by
    intro ss
    induction ss with
    | nil => exact ⟨[], rfl, by simp⟩
    | cons s ss ih =>
      obtain ⟨us, hus, hsum⟩ := ih
      obtain ⟨u, hu⟩ := Option.isSome_iff_exists.1 (T.weight_isSome cap s)
      refine ⟨u :: us, by simp [List.mapM_cons, hu, hus], ?_⟩
      have hs : T.stake cap s = u / 10 ^ 18 := by rw [stake, hu, Option.getD_some]
      rw [List.sum_cons, List.map_cons, List.sum_cons, ← hsum, hs]
      push_cast
      ring
  obtain ⟨us, hus, hsum⟩ := hgen (T.sourceList cap)
  rw [totalText, sumCanonicalAmounts, hus] at h
  cases h
  refine ⟨us.sum, amountUnits_unitsText _, ?_⟩
  have hnodup : (T.sourceList cap).Nodup := List.nodup_dedup _
  rw [hsum, totalStake, sources, List.sum_toFinset _ hnodup]

end StakeTable

/-- A stakes sub-tree: one leaf for each registration and one for each capability's total. -/
structure CommittedStakes (H : Host) extends StakeTable where
  leaves : LeafMap
  mem_leaves : ∀ key text, (key, text) ∈ leaves.entries ↔
    (∃ r ∈ rows, stakeKey H r.pubkey r.capability = some key ∧
      stakeMemberText r.source (str (weight r.capability r.source)) = some text) ∨
    ∃ r ∈ rows, stakeKey H STAKE_TOTAL_PUBKEY r.capability = some key ∧
      ∃ t, toStakeTable.totalText r.capability = some t ∧ stakeTotalText (str t) = some text

/-- The preimages of the keys. -/
def CommittedStakes.keysHashed {H : Host} (T : CommittedStakes H) : Set Bytes :=
  {x | ∃ r ∈ T.rows, ∃ pk, (pk = r.pubkey ∨ pk = STAKE_TOTAL_PUBKEY) ∧
    joinFields ["XCHAIN_STK", pk, r.capability] = some x}

/-- The stakes next to arbitrary other sub-trees. -/
def CommittedStakes.state {H : Host} (T : CommittedStakes H) (other : LeafState) : LeafState :=
  fun name => if name = "stakes_root" then T.leaves else other name

theorem CommittedStakes.state_stakes_root {H : Host} (T : CommittedStakes H) (other : LeafState) :
    T.state other "stakes_root" = T.leaves := if_pos rfl

/-! ### Claims -/

/-- What a row or a total of a served set claims: the leaf of a pubkey, and a proof of it. -/
structure StakeClaim where
  pubkey : String
  text : Option Bytes
  leaf : Js
  compressed : Js

/-- The claim of a row. -/
def memberClaim (v : Js) : StakeClaim where
  pubkey := (v.field "pubkey").toText
  text := stakeMemberText (v.field "source").toText (v.field "weight")
  leaf := (v.field "smt_proof").field "leaf_value"
  compressed := (v.field "smt_proof").field "compressed"

/-- The claim of a total. -/
def totalClaim (c : Js) : StakeClaim where
  pubkey := STAKE_TOTAL_PUBKEY
  text := stakeTotalText (c.field "total")
  leaf := (c.field "total_proof").field "leaf_value"
  compressed := (c.field "total_proof").field "compressed"

/-- The claims of a capability. -/
def stakeClaims (c : Js) : List StakeClaim :=
  ((capabilityRows c).getD []).map memberClaim ++
    if (c.field "total_proof").truthy then [totalClaim c] else []

namespace StakeClaim

variable (H : Host) (cap : String) (q : StakeClaim)

/-- The checks of a claim. -/
def Passes (stakesRoot : Js) : Prop :=
  ∃ key text, stakeKey H q.pubkey cap = some key ∧ q.text = some text ∧
    lowerHex H q.leaf = toHex (leafHash H text).bytes ∧
    verifyCompressedSmtProof H stakesRoot key q.leaf q.compressed = some true

/-- The byte strings that checking a claim hashes. -/
def hashed (stakesRoot path : Js) : Set Bytes :=
  {x | joinFields ["XCHAIN_STK", q.pubkey, cap] = some x} ∪
    {x | ∃ text, q.text = some text ∧ x = 0 :: text} ∪
    {x | ∃ key, stakeKey H q.pubkey cap = some key ∧
      x ∈ boundHashed H key q.leaf q.compressed stakesRoot path}

/-- The claim differs from what is committed at its key, and its leaf is a one-element array that
stands for a byte on the path of the key. -/
def Forged (σ : LeafState) : Prop :=
  ∃ key text x β, stakeKey H q.pubkey cap = some key ∧ q.text = some text ∧
    0 :: text ≠ (σ "stakes_root").endPreimage key ∧
    q.leaf = arr [x] ∧ toUint8 x = some β ∧ σ.ReachesByte H 1 key β

variable {H cap q}

theorem stakeKey_preimage {pubkey : String} {key : Digest} (h : stakeKey H pubkey cap = some key) :
    ∃ x, joinFields ["XCHAIN_STK", pubkey, cap] = some x ∧ key = H.sha256 x := by
  obtain ⟨x, hx, rfl⟩ := Option.map_eq_some_iff.1 h
  exact ⟨x, hx, rfl⟩

/-- Keys that are equal have equal pubkeys and capabilities. -/
theorem stakeKey_inj {S : Set Bytes} (hS : CollisionFree H.sha256 S) {pk pk' cap' : String}
    {key : Digest} (h : stakeKey H pk cap = some key) (h' : stakeKey H pk' cap' = some key)
    (hin : ∀ x, joinFields ["XCHAIN_STK", pk, cap] = some x → x ∈ S)
    (hin' : ∀ x, joinFields ["XCHAIN_STK", pk', cap'] = some x → x ∈ S) :
    pk = pk' ∧ cap = cap' := by
  obtain ⟨x, hx, rfl⟩ := stakeKey_preimage h
  obtain ⟨y, hy, he⟩ := stakeKey_preimage h'
  have hxy := hS (hin x hx) (hin' y hy) he
  subst hxy
  have := joinFields_inj (by simp) (by simp) hx hy
  simpa using this

/-- **A passed claim is committed.**  Its key has a leaf, with the claimed text. -/
theorem committed {S : Set Bytes} (hS : CollisionFree H.sha256 S) {σ : LeafState}
    (hσ : ∀ x ∈ σ.hashed H, x ∈ S) {stakesRoot path : Js} (hin : q.hashed H cap stakesRoot path ⊆ S)
    (hpass : q.Passes H cap stakesRoot)
    (hindex : otherSlot (path.field "index") "stakes_root" = false)
    (hbind : subRootBinds H (hexText (σ.root H)) stakesRoot path = some true)
    (hforged : ¬q.Forged H cap σ) :
    ∃ key text, stakeKey H q.pubkey cap = some key ∧ q.text = some text ∧
      (key, text) ∈ (σ "stakes_root").entries := by
  obtain ⟨key, text, hkey, htext, hleaf, hproof⟩ := hpass
  have hnull : q.leaf.isNullish = false := by
    by_contra hnull
    rw [Bool.not_eq_false] at hnull
    rw [lowerHex, elemText, if_pos hnull, H.toLowerCase_ascii "" (by decide)] at hleaf
    have hlen := congrArg (fun s : String => (hexDecode s).length) hleaf
    simp only [hexDecode_toHex, Digest.length_bytes] at hlen
    exact absurd hlen (by decide)
  refine ⟨key, text, hkey, htext, ?_⟩
  rcases bound_leaf 1 "stakes_root" hS hσ rfl rfl (fun x hx => hin (.inr ⟨key, hkey, hx⟩))
    ⟨by simp [leafDomain], hin (.inl (.inr ⟨text, htext, rfl⟩))⟩ (.inr ⟨hnull, hleaf⟩) hproof hindex
    hbind with hend | ⟨x, β, hx, hβ, hreach⟩
  · exact LeafMap.mem_entries_of_endPreimage hend
  · by_contra hnot
    exact hforged ⟨key, text, x, β, hkey, htext,
      fun hend => hnot (LeafMap.mem_entries_of_endPreimage hend), hx, hβ, hreach⟩

end StakeClaim

end XChainSdk
