import Mathlib
import XChainSdk.LightClient.CommittedStakes
import XChainSdk.LightClient.SpelledSet

/-!
# Quorums over a proven set

* `stakeClaims_pass` : a verified validator-set proof is a list of passed claims.
* `Snapshot.ListedIn` : what the claims of a capability say about the rows that are returned.
* `provenQuorum_sound` : **the prover cannot lower the quorum**, unless a claimed leaf is forged or a
  source is listed under two strings.
-/

namespace XChainSdk

open Hash Js HashTree

/-! ### Claims of a verified proof -/

section Claims

variable {H : Host} {cap : String} {stakesRoot v c : Js}

theorem passes_memberClaim (h : ∀ check ∈ memberChecks H stakesRoot cap v, check = some none) :
    (memberClaim v).Passes H cap stakesRoot := by
  simp only [memberChecks, List.mem_cons, List.not_mem_nil, or_false, forall_eq_or_imp, forall_eq,
    refuse_eq_pass_iff, stakeMemberLeaf_eq] at h
  obtain ⟨hleaf, hproof⟩ := h
  obtain ⟨smt, hsmt, hleaf⟩ := Option.bind_eq_some_iff.1 hleaf
  obtain ⟨leaf, hmap, hleaf⟩ := Option.bind_eq_some_iff.1 hleaf
  obtain ⟨text, htext, rfl⟩ := Option.map_eq_some_iff.1 hmap
  have hfield : v.field "smt_proof" = smt := by rw [Js.field, hsmt, Option.getD_some]
  rw [hfield] at hproof
  obtain ⟨key, hkey, hproof⟩ := Option.bind_eq_some_iff.1 hproof
  obtain ⟨lv, hlv, hproof⟩ := Option.bind_eq_some_iff.1 hproof
  obtain ⟨compressed, hcompressed, hproof⟩ := Option.bind_eq_some_iff.1 hproof
  obtain ⟨ok, hok, hnot⟩ := Option.bind_eq_some_iff.1 hproof
  have hlvField : smt.field "leaf_value" = lv := by rw [Js.field, hlv, Option.getD_some]
  have hcField : smt.field "compressed" = compressed := by
    rw [Js.field, hcompressed, Option.getD_some]
  -- a falsy proof object has no compressed part to decompress
  have htruthy : smt.truthy = true := by
    by_contra hfalsy
    have hundef : compressed = undefined := by
      cases smt with
      | arr _ | obj _ => exact absurd rfl hfalsy
      | undefined | null => cases hcompressed
      | _ => exact (Option.some.inj hcompressed).symm
    rw [hundef] at hok
    cases hok
  have hok' : ok = true := by simpa using hnot
  refine ⟨key, text, hkey, htext, ?_, ?_⟩
  · rw [memberClaim, hfield, hlvField, ← hlvField, ← getIf_of_truthy htruthy]
    simpa using hleaf
  · rw [memberClaim, hfield, hlvField, hcField, hok, hok']

theorem passes_totalClaim (htruthy : (c.field "total_proof").truthy = true)
    (h : ∀ check ∈ totalChecks H stakesRoot cap c, check = some none) :
    (totalClaim c).Passes H cap stakesRoot := by
  simp only [totalChecks, htruthy, if_true, List.mem_cons, List.not_mem_nil, or_false,
    forall_eq_or_imp, forall_eq, refuse_eq_pass_iff, stakeTotalLeaf_eq] at h
  obtain ⟨hleaf, hproof⟩ := h
  obtain ⟨leaf, hmap, hleaf⟩ := Option.bind_eq_some_iff.1 hleaf
  obtain ⟨text, htext, rfl⟩ := Option.map_eq_some_iff.1 hmap
  obtain ⟨key, hkey, hproof⟩ := Option.bind_eq_some_iff.1 hproof
  obtain ⟨ok, hok, hnot⟩ := Option.bind_eq_some_iff.1 hproof
  refine ⟨key, text, hkey, htext, by simpa [totalClaim] using hleaf, ?_⟩
  rw [totalClaim, hok]
  simpa using hnot

/-- The claims of a capability whose checks pass, and its rows. -/
theorem passes_of_capabilityChecks
    (h : ∀ check ∈ capabilityChecks H stakesRoot cap c, check = some none) :
    (capabilityRows c).isSome ∧ ∀ q ∈ stakeClaims c, q.Passes H cap stakesRoot := by
  rw [capabilityChecks] at h
  cases hrows : capabilityRows c with
  | none =>
    rw [hrows] at h
    exact absurd (h none (by simp)) (by simp)
  | some rows =>
    rw [hrows] at h
    refine ⟨rfl, fun q hq => ?_⟩
    rw [stakeClaims, hrows, Option.getD_some] at hq
    rcases List.mem_append.1 hq with hq | hq
    · obtain ⟨v, hv, rfl⟩ := List.mem_map.1 hq
      exact passes_memberClaim fun check hcheck =>
        h check (List.mem_append_left _ (List.mem_flatMap.2 ⟨v, hv, hcheck⟩))
    · split_ifs at hq with htruthy
      · rw [List.mem_singleton.1 hq]
        exact passes_totalClaim htruthy fun check hcheck => h check (List.mem_append_right _ hcheck)
      · cases hq

end Claims

/-- The byte strings that checking the claims of a capability hashes. -/
def claimsHashed (H : Host) (cap : String) (proof : Js) : Set Bytes :=
  {x | ∃ c, (cap, c) ∈ (proof.field "capabilities").ownEntries.getD [] ∧ ∃ q ∈ stakeClaims c,
    x ∈ q.hashed H cap (proof.field "stakes_root") (proof.field "sub_root_path")}

/-- Some claim of the capability is forged. -/
def ForgedClaim (H : Host) (σ : LeafState) (cap : String) (proof : Js) : Prop :=
  ∃ c, (cap, c) ∈ (proof.field "capabilities").ownEntries.getD [] ∧
    ∃ q ∈ stakeClaims c, q.Forged H cap σ

/-- A verified proof, its binding and the claims behind a capability that it returns. -/
theorem stakeClaims_pass {H : Host} {proof root : Js} {cap : String} {P : ProvenSet}
    (hverified : (verifyValidatorSetProof H proof root).verified = true)
    (hP : (cap, P) ∈ (verifyValidatorSetProof H proof root).capabilities) :
    otherSlot ((proof.field "sub_root_path").field "index") "stakes_root" = false ∧
      subRootBinds H root (proof.field "stakes_root") (proof.field "sub_root_path") = some true ∧
      ∃ c, (cap, c) ∈ (proof.field "capabilities").ownEntries.getD [] ∧ P = provenSet c ∧
        ∀ q ∈ stakeClaims c, q.Passes H cap (proof.field "stakes_root") := by
  have hrun : runChecks (validatorSetChecks H proof root) = some none := by
    rw [verifyValidatorSetProof] at hverified
    rcases hr : runChecks (validatorSetChecks H proof root) with _ | _ | reason
    · simp [hr] at hverified
    · rfl
    · simp [hr] at hverified
  have hpass := runChecks_eq_pass_iff.1 hrun
  simp only [validatorSetChecks, List.forall_mem_append, List.mem_cons, List.not_mem_nil, or_false,
    forall_eq_or_imp, forall_eq, refuse_eq_pass_iff, List.mem_flatMap, Prod.exists] at hpass
  obtain ⟨⟨-, hslot, hbind⟩, hcaps⟩ := hpass
  rw [verifyValidatorSetProof, hrun] at hP
  obtain ⟨⟨cap', c⟩, hc, he⟩ := List.mem_map.1 hP
  cases he
  obtain ⟨bound, hbound, hnot⟩ := Option.map_eq_some_iff.1 hbind
  refine ⟨by simpa using hslot, ?_, c, hc, rfl, (passes_of_capabilityChecks
    fun check hcheck => hcaps check ⟨_, c, hc, hcheck⟩).2⟩
  rw [hbound]
  simpa using hnot

/-! ### Listed rows -/

/-- Every row is a registration of the capability, with the committed weight of its source. -/
def Snapshot.ListedIn (V : Snapshot) (T : StakeTable) (cap : String) : Prop :=
  ∀ v ∈ V.rows, ∃ r ∈ T.rows, r.capability = cap ∧ r.pubkey = (v.field "pubkey").toText ∧
    r.source = (v.field "source").toText ∧
    amountUnits (v.field "weight").toText = amountUnits (T.weight cap r.source)

namespace Snapshot.ListedIn

variable {V : Snapshot} {T : StakeTable} {cap : String} {H : Host} {idx : StakeIndex}
  (h : V.ListedIn T cap)
include h

theorem exists_row {v : Js} (hv : v ∈ V.rows) {s : String} (hs : rowSource v = some s) :
    ∃ r ∈ T.rows, r.capability = cap ∧ r.pubkey = (v.field "pubkey").toText ∧ r.source = s ∧
      amountUnits (v.field "weight").toText = amountUnits (T.weight cap s) := by
  obtain ⟨r, hr, hcap, hpk, hsrc, hw⟩ := h v hv
  rw [(source_of_rowSource hs).2] at hsrc
  exact ⟨r, hr, hcap, hpk, hsrc, hsrc ▸ hw⟩

theorem sources_subset : V.sources ⊆ T.sources cap := fun s hs => by
  obtain ⟨v, hv, hsrc⟩ := mem_sourcesOf.1 hs
  obtain ⟨r, hr, hcap, -, hrs, -⟩ := h.exists_row hv hsrc
  exact StakeTable.mem_sources.2 ⟨r, hr, hcap, hrs⟩

theorem weight_eq (hi : IndexSpec H V.rows idx) {s : String} (hs : s ∈ V.sources) :
    V.weight s = T.stake cap s := by
  obtain ⟨v, hfirst⟩ := Option.isSome_iff_exists.1 (firstRow_isSome.2 hs)
  obtain ⟨hv, hsrc⟩ := firstRow_eq_some hfirst
  obtain ⟨r, -, -, -, -, hw⟩ := h.exists_row hv hsrc
  obtain ⟨u, hu⟩ := Option.isSome_iff_exists.1 (T.weight_isSome cap s)
  obtain ⟨ws, hws⟩ := Option.isSome_iff_exists.1 (hi.weight s v hfirst)
  have htext : amountUnits (v.field "weight").toText = some u := hw.trans hu
  rw [Snapshot.weight, hfirst, Option.bind_some, rowValue, hws, Option.map_some, Option.getD_some,
    rowWeight_eq_some (source_of_rowSource hsrc).1 hws, bcnum, trim_trim_of_amountUnits (by simp [htext]),
    decimalText_of_amountUnits htext, StakeTable.stake, hu, Option.getD_some, Option.getD_some]

theorem sum_eq (hi : IndexSpec H V.rows idx) {A : Finset String} (hA : A ⊆ V.sources) :
    ∑ s ∈ A, V.weight s = ∑ s ∈ A, T.stake cap s :=
  Finset.sum_congr rfl fun _ hs => h.weight_eq hi (hA hs)

/-- The code's sums over the rows are decimals up to three times the committed total. -/
theorem fits (hi : IndexSpec H V.rows idx) : V.Fits (T.sums cap) := fun A hA => by
  rw [h.sum_eq hi hA]
  obtain ⟨n, hn⟩ : ∃ n : ℕ, ∑ s ∈ A, T.stake cap s = n / 10 ^ 18 := StakeTable.exists_units_sum A
  have hle : ∑ s ∈ A, T.stake cap s ≤ T.totalStake cap :=
    Finset.sum_le_sum_of_subset_of_nonneg (hA.trans h.sources_subset)
      fun s _ _ => StakeTable.stake_nonneg s
  have hnonneg : 0 ≤ T.totalStake cap := Finset.sum_nonneg fun s _ => StakeTable.stake_nonneg s
  refine ⟨⟨⟨n, hn⟩, by linarith⟩, ⟨⟨n * 2, ?_⟩, by linarith⟩, ⟨⟨n * 3, ?_⟩, by linarith⟩⟩ <;>
  · rw [hn]
    push_cast
    ring

/-- Sources that the code counts have a registered pubkey that signed. -/
theorem signingSources_subset {canonical : String} {sigs : List Js} :
    V.signingSources H ((validSigners H canonical (provenPubkeys H V.rows) sigs).map .str) ⊆
      T.signingSources cap H canonical sigs := fun s hs => by
  obtain ⟨v, hv, hsrc⟩ := mem_sourcesOf.1 hs
  obtain ⟨hv, hsigner⟩ := List.mem_filter.1 hv
  obtain ⟨pk, hpk, he⟩ : ∃ pk ∈ validSigners H canonical (provenPubkeys H V.rows) sigs,
      H.toLowerCase pk = rowPubkey H v := by simpa using hsigner
  obtain ⟨-, e, hemem, hsigned⟩ := mem_validSigners.1 hpk
  obtain ⟨r, hr, hcap, hrpk, hrs, -⟩ := h.exists_row hv hsrc
  refine StakeTable.mem_signingSources.2 ⟨r, hr, hcap, hrs, e, hemem, ?_⟩
  have hlower : H.toLowerCase r.pubkey = pk := by
    rw [hrpk, ← toLowerCase_of_signedBy hsigned, he, rowPubkey,
      getIf_of_truthy (source_of_rowSource hsrc).1]
  rw [hlower]
  exact hsigned

end Snapshot.ListedIn

/-! ### Soundness -/

section Soundness

variable {H : Host} {B : BigNum} {T : CommittedStakes H} {other : LeafState} {cap : String}
  {proof cp : Js} {P : ProvenSet}

/-- The leaf of a claim is a registration or a total of its capability. -/
theorem CommittedStakes.claim_cases {S : Set Bytes} (hS : CollisionFree H.sha256 S)
    (hkeys : T.keysHashed ⊆ S) {q : StakeClaim} {key : Digest} {text : Bytes}
    (hkey : stakeKey H q.pubkey cap = some key)
    (hin : ∀ x, joinFields ["XCHAIN_STK", q.pubkey, cap] = some x → x ∈ S)
    (hmem : (key, text) ∈ T.leaves.entries) :
    (∃ r ∈ T.rows, r.capability = cap ∧ r.pubkey = q.pubkey ∧
      stakeMemberText r.source (str (T.weight cap r.source)) = some text) ∨
    ∃ t, T.totalText cap = some t ∧ stakeTotalText (str t) = some text := by
  rcases (T.mem_leaves key text).1 hmem with ⟨r, hr, hrkey, htext⟩ | ⟨r, hr, hrkey, t, ht, htext⟩
  · obtain ⟨hpk, rfl⟩ := StakeClaim.stakeKey_inj hS hkey hrkey hin
      fun x hx => hkeys ⟨r, hr, r.pubkey, .inl rfl, hx⟩
    exact .inl ⟨r, hr, rfl, hpk.symm, htext⟩
  · obtain ⟨-, rfl⟩ := StakeClaim.stakeKey_inj hS hkey hrkey hin
      fun x hx => hkeys ⟨r, hr, STAKE_TOTAL_PUBKEY, .inr rfl, hx⟩
    exact .inr ⟨t, ht, htext⟩

/-- **The returned rows are registrations, and the returned total is the committed one**, when no
claim is forged. -/
theorem listedIn_provenSet
    (hS : CollisionFree H.sha256
      ({x | x ∈ (T.state other).hashed H} ∪ T.keysHashed ∪ claimsHashed H cap proof))
    (hverified :
      (verifyValidatorSetProof H proof (hexText ((T.state other).root H))).verified = true)
    (hP : (cap, P) ∈ (verifyValidatorSetProof H proof (hexText ((T.state other).root H))).capabilities)
    (hforged : ¬ForgedClaim H (T.state other) cap proof) :
    P.validators.ListedIn T.toStakeTable cap ∧
      ∃ t u, P.total = str t ∧ amountUnits t = some u ∧
        (u = 0 ∨ (u : ℚ) / 10 ^ 18 = T.totalStake cap) := by
  obtain ⟨hslot, hbind, c, hc, rfl, hpasses⟩ := stakeClaims_pass hverified hP
  have hkeys : T.keysHashed ⊆
      {x | x ∈ (T.state other).hashed H} ∪ T.keysHashed ∪ claimsHashed H cap proof :=
    fun x hx => .inl (.inr hx)
  -- Every claim that passes has a committed text: a member's row or the total.
  have hclaim : ∀ q ∈ stakeClaims c, ∃ text, q.text = some text ∧
      ((∃ r ∈ T.rows, r.capability = cap ∧ r.pubkey = q.pubkey ∧
        stakeMemberText r.source (str (T.weight cap r.source)) = some text) ∨
      ∃ t, T.totalText cap = some t ∧ stakeTotalText (str t) = some text) := by
    intro q hq
    have hin : q.hashed H cap (proof.field "stakes_root") (proof.field "sub_root_path") ⊆
        {x | x ∈ (T.state other).hashed H} ∪ T.keysHashed ∪ claimsHashed H cap proof :=
      fun x hx => .inr ⟨c, hc, q, hq, hx⟩
    obtain ⟨key, text, hkey, htext, hmem⟩ := StakeClaim.committed hS
      (fun x hx => .inl (.inl hx)) hin (hpasses q hq) hslot hbind
      fun hf => hforged ⟨c, hc, q, hq, hf⟩
    exact ⟨text, htext, T.claim_cases hS hkeys hkey (fun x hx => hin (.inl (.inl hx))) hmem⟩
  refine ⟨fun w hw => ?_, ?_⟩
  · obtain ⟨v, hv, rfl⟩ := List.mem_map.1 hw
    obtain ⟨text, htext, hcases⟩ := hclaim (memberClaim v)
      (List.mem_append_left _ (List.mem_map_of_mem hv))
    have hfields : ((provenRow v).field "pubkey").toText = (v.field "pubkey").toText ∧
        ((provenRow v).field "source").toText = (v.field "source").toText ∧
        ((provenRow v).field "weight").toText = (v.field "weight").toText :=
      ⟨toText_str _, toText_str _, toText_str _⟩
    rw [hfields.1, hfields.2.1, hfields.2.2]
    rcases hcases with ⟨r, hr, hcap, hpk, hrtext⟩ | ⟨t, -, httext⟩
    · obtain ⟨hsource, hweight⟩ := units_of_stakeMemberText htext hrtext
      exact ⟨r, hr, hcap, hpk, hsource.symm, by rw [hweight, toText_str]⟩
    · exact absurd httext (stakeMemberText_ne_stakeTotalText htext)
  -- Without a total proof the code reports "0".
  · by_cases htruthy : (c.field "total_proof").truthy = true
    · obtain ⟨text, htext, hcases⟩ := hclaim (totalClaim c)
        (List.mem_append_right _ (by rw [if_pos htruthy]; exact List.mem_singleton_self _))
      rcases hcases with ⟨r, -, -, -, hrtext⟩ | ⟨t, ht, httext⟩
      · exact absurd htext (stakeMemberText_ne_stakeTotalText hrtext)
      · obtain ⟨u, hu, hsum⟩ := StakeTable.amountUnits_totalText ht
        have hunits : amountUnits (c.field "total").toText = some u := by
          rw [units_of_stakeTotalText htext httext, toText_str, hu]
        obtain ⟨p, hp, -⟩ := Option.map_eq_some_iff.1 hunits
        have hcanonical : canonicalAmount (c.field "total").toText =
            some (String.ofList (p.1 ++ '.' :: p.2)) := by
          rw [canonicalAmount, hp]
          rfl
        refine ⟨(canonicalAmount (c.field "total").toText).getD "", u, ?_, ?_, .inr hsum⟩
        · rw [provenSet, if_pos htruthy]
        · rw [hcanonical, Option.getD_some, amountUnits_canonicalAmount hcanonical, hunits]
    · exact ⟨"0", 0, by rw [provenSet, if_neg htruthy], by decide, .inl rfl⟩

/-- The sources that signed hold more than two thirds of the committed stake, when the checkpoint is
valid over the texts of the returned rows. -/
theorem twoThirds_of_valid (hB : B.ExactOn (T.sums cap))
    (hS : CollisionFree H.sha256
      ({x | x ∈ (T.state other).hashed H} ∪ T.keysHashed ∪ claimsHashed H cap proof))
    (hforged : ¬ForgedClaim H (T.state other) cap proof)
    (hverified :
      (verifyValidatorSetProof H proof (hexText ((T.state other).root H))).verified = true)
    (hP : (cap, P) ∈ (verifyValidatorSetProof H proof (hexText ((T.state other).root H))).capabilities)
    (hvalid : (verifyCheckpointWithProvenSet H B cp (some P)).valid = true) :
    ∃ canonical, canonicalCheckpoint H cp = some canonical ∧
      Quorum.TwoThirds (T.stake cap) (T.sources cap) (T.signingSources cap H canonical
        (signatureEntries H (cp.field "validator_signatures"))) := by
  obtain ⟨hlisted, t, u, ht, hu, hcommitted⟩ := listedIn_provenSet hS hverified hP hforged
  obtain ⟨P', canonical, hP', hq⟩ := verifyCheckpointWithProvenSet_valid hvalid
  cases hP'
  obtain ⟨idx, hidx, -⟩ := totalStake_isSome hq.meets
  have hi := indexSpec_of_indexStakeSources hidx
  have hfits := hlisted.fits hi
  obtain ⟨-, idx', S, hidx', hS', hquorum⟩ := (meetsStakeThreshold_iff hB hfits _).1 hq.meets
  cases hidx.symm.trans hidx'
  -- the cross-check makes the total of the listed rows the committed total
  have htotalEq : P.validators.total = T.totalStake cap := by
    obtain ⟨t', u', ht', hu', hut'⟩ := exactStakeTotal_units (fun v hv => by
      obtain ⟨r, -, -, -, -, hw⟩ := hlisted v hv
      rw [hw]
      exact T.weight_isSome cap r.source) hq.meets
    obtain ⟨t'', c, ht'', hc, hcross⟩ := hq.total
    cases ht'.symm.trans ht''
    cases hu'.symm.trans hc
    rw [ht, committedUnits hu] at hcross
    cases hcross
    obtain ⟨hSeq, hpos, -⟩ := hi.sumStakeWeights_eq hB hfits hS'
    rcases hcommitted with rfl | hcommitted
    · rw [hSeq, ← hut'] at hpos
      simp at hpos
    · rw [← hut', hcommitted]
  have hcounted : idx.counted H ((validSigners H canonical (provenPubkeys H P.validators.rows)
      (signatureEntries H (cp.field "validator_signatures"))).map .str) ⊆ P.validators.sources :=
    (hi.counted_subset _).trans (P.validators.signingSources_subset _)
  refine ⟨canonical, hq.signed, ?_⟩
  have hstake : Quorum.TwoThirds (T.stake cap) (T.sources cap) (idx.counted H
      ((validSigners H canonical (provenPubkeys H P.validators.rows)
        (signatureEntries H (cp.field "validator_signatures"))).map .str)) := by
    have hsum : ∑ s ∈ P.validators.sources, P.validators.weight s =
        ∑ s ∈ T.sources cap, T.stake cap s := htotalEq
    rw [Quorum.TwoThirds, hsum, hlisted.sum_eq hi hcounted] at hquorum
    exact hquorum
  exact hstake.mono (fun s _ => StakeTable.stake_nonneg s)
    ((hi.counted_subset _).trans hlisted.signingSources_subset)

end Soundness

/-- **A proven-set quorum cannot be lowered by the prover.**  For every committed stakes sub-tree
and every served validator-set proof of which no claim of the capability is forged, and no source is
listed under two strings of one text: when the proof verifies and the checkpoint is valid over the
returned set, the distinct sources with a registered pubkey that signed the canonical bytes hold more
than two thirds of the committed stake. -/
theorem provenQuorum_sound (H : Host) (B : BigNum) (T : CommittedStakes H) (other : LeafState)
    (cap : String) (proof : RawJs) (cp : Js) (P : SpelledSet) (hB : B.ExactOn (T.sums cap))
    (hS : CollisionFree H.sha256
      ({x | x ∈ (T.state other).hashed H} ∪ T.keysHashed ∪ claimsHashed H cap proof.text))
    (hforged : ¬ForgedClaim H (T.state other) cap proof.text) (hspelling : OneSpelling cap proof)
    (hP : (cap, P) ∈
      (SpelledSet.verifyValidatorSetProof H proof (hexText ((T.state other).root H))).capabilities)
    (hvalid : (SpelledSet.verifyCheckpointWithProvenSet H B cp P).valid = true) :
    ∃ canonical, canonicalCheckpoint H cp = some canonical ∧
      Quorum.TwoThirds (T.stake cap) (T.sources cap) (T.signingSources cap H canonical
        (signatureEntries H (cp.field "validator_signatures"))) := by
  obtain ⟨hverified, htext, c, hc, rfl⟩ := SpelledSet.capabilities_verifyValidatorSetProof hP
  exact twoThirds_of_valid hB hS hforged hverified htext
    (SpelledSet.verifyCheckpointWithProvenSet_text (hspelling c hc) hvalid)

/-! ### A stakes tree with one validator -/

/-- The capability that signs checkpoints. -/
def sampleCapability : String := "oracle_publish"

/-- The weight of the validator, and the total. -/
def sampleWeight : String := "1.000000000000000000"

/-- The committed leaf of a member, or of the total. -/
def sampleMemberText (source : String) : Bytes :=
  (joinFields ["STK", source, sampleWeight]).getD []

/-- The committed leaf of the total. -/
def sampleTotalText : Bytes := (joinFields ["STKTOTAL", sampleWeight]).getD []

/-- The key of a pubkey. -/
def sampleStakeKey (pubkey : String) : Digest :=
  (stakeKey sampleHost pubkey sampleCapability).getD (sampleDigest 0)

/-- The preimage of the key of a pubkey. -/
def sampleKeyPreimage (pubkey : String) : Bytes :=
  (joinFields ["XCHAIN_STK", pubkey, sampleCapability]).getD []

/-- One validator holds all the stake. -/
def sampleTable : StakeTable where
  rows := [⟨sampleCapability, samplePubkey 'c', "a"⟩]
  weight _ _ := sampleWeight
  weight_isSome _ _ := by decide

theorem stakeKey_sampleHost {pubkey : String}
    (h : pubkey = samplePubkey 'c' ∨ pubkey = samplePubkey 'd' ∨ pubkey = STAKE_TOTAL_PUBKEY) :
    stakeKey sampleHost pubkey sampleCapability = some (sampleStakeKey pubkey) := by
  rcases h with rfl | rfl | rfl <;> decide

theorem stakeMemberText_sample {source : String} (h : source = "a" ∨ source = "b") :
    stakeMemberText source (str sampleWeight) = some (sampleMemberText source) := by
  rcases h with rfl | rfl <;> decide

theorem stakeTotalText_sample : sampleTable.totalText sampleCapability = some sampleWeight ∧
    stakeTotalText (str sampleWeight) = some sampleTotalText := by
  decide

/-- The stakes sub-tree of that table. -/
def sampleStakes : CommittedStakes sampleHost where
  toStakeTable := sampleTable
  leaves :=
    { entries := [(sampleStakeKey (samplePubkey 'c'), sampleMemberText "a"),
        (sampleStakeKey STAKE_TOTAL_PUBKEY, sampleTotalText)]
      nodup := by decide }
  mem_leaves key text := by
    have hrows : sampleTable.rows = [⟨sampleCapability, samplePubkey 'c', "a"⟩] := rfl
    have hweight : sampleTable.weight sampleCapability "a" = sampleWeight := rfl
    simp only [hrows, exists_eq_left, hweight, stakeKey_sampleHost (.inl rfl),
      stakeKey_sampleHost (.inr (.inr rfl)), stakeMemberText_sample (.inl rfl),
      stakeTotalText_sample.1, stakeTotalText_sample.2, Option.some.injEq, exists_eq_left',
      List.mem_cons, List.not_mem_nil, or_false, Prod.mk.injEq]
    constructor <;> rintro (⟨rfl, rfl⟩ | ⟨rfl, rfl⟩) <;> simp

/-- The numbers of its nodes. -/
def stakeLedger : Ledger where
  key k := sampleStakeKey (if k = 1298 then samplePubkey 'c' else STAKE_TOTAL_PUBKEY)
  text k := if k = 1298 then sampleMemberText "a" else if k = 1299 then sampleMemberText "b"
    else sampleTotalText
  top := [(26722256, 1589255, 1298255), (26722257, 256, 26722256), (500000257, 256, 0),
    (26722258, 26722257, 257), (1000000258, 500000257, 1), (1427552259, 26722258, 1000000258)]

theorem byteSum_sampleTexts : byteSum (sampleMemberText "a") = 1298 ∧
    byteSum (sampleMemberText "b") = 1299 ∧ byteSum sampleTotalText = 1589 := by
  decide

theorem stakeLedger_separate {n : ℕ} (h : n < 2000000) : stakeLedger.Separate n := by
  have hne : n ≠ 26722256 ∧ n ≠ 26722257 ∧ n ≠ 500000257 ∧ n ≠ 26722258 ∧ n ≠ 1000000258 ∧
      n ≠ 1427552259 := by omega
  obtain ⟨h1, h2, h3, h4, h5, h6⟩ := hne
  simp [Ledger.Separate, stakeLedger, Loop.lookup_cons, h1, h2, h3, h4, h5, h6]

theorem leaves_sampleStakes : (sampleStakes.leaves.tree sampleHost).leaves =
    [(stakeLedger.key 1298, sampleDigest (1000 * 1298)),
      (stakeLedger.key 1589, sampleDigest (1000 * 1589))] := by
  obtain ⟨ha, -, ht⟩ := byteSum_sampleTexts
  rw [← ha, ← ht]
  rfl

/-- The other sub-trees are empty. -/
def emptyLeafState : LeafState := fun _ => ⟨[], List.nodup_nil⟩

theorem readsBack_sampleStakes {x : Bytes}
    (hx : x ∈ (sampleStakes.state emptyLeafState).hashed sampleHost) : ReadsBack stakeLedger x := by
  obtain ⟨hroot, hnodes⟩ := samplePreimage_pair stakeLedger 1589 1298
    (by decide) (by decide) (by decide) (by decide) (by decide) (by decide)
    (fun h hh => stakeLedger_separate (by omega)) (fun h hh => stakeLedger_separate (by omega)) rfl
  rw [← leaves_sampleStakes] at hroot hnodes
  obtain ⟨ha, -, ht⟩ := byteSum_sampleTexts
  have hx : x ∈ (singleState "stakes_root" sampleStakes.leaves).hashed sampleHost := hx
  refine readsBack_singleState hroot
    (fun n hn => stakeLedger_separate (by omega)) (fun e he => ?_) hnodes (fun p hp => ?_) hx
  · rcases List.mem_cons.1 he with rfl | he
    · refine readsBack_leaf ?_ ?_ ?_ (stakeLedger_separate ?_) <;> simp only [ha]
      · rfl
      · decide
      · decide
      · decide
    · rw [List.mem_singleton.1 he]
      refine readsBack_leaf ?_ ?_ ?_ (stakeLedger_separate ?_) <;> simp only [ht]
      · rfl
      · decide
      · decide
      · decide
  · have hpairs : topPairs (slotNumber "stakes_root" ((16 * 1589 + 1298) * 1000 + 256)) =
        [(256, 26722256), (256, 256), (256, 0), (0, 0), (26722257, 257), (500000257, 1),
          (26722258, 1000000258)] := by decide
    rw [hpairs] at hp
    simp only [List.mem_cons, List.not_mem_nil, or_false] at hp
    rcases hp with rfl | rfl | rfl | rfl | rfl | rfl | rfl <;> refine ⟨by decide, by decide, ?_⟩
    · exact readsBack_top (by decide) (by decide) (by decide) (by decide)
    · exact readsBack_emptyPair (stakeLedger_separate (by decide)) (by decide)
    · exact readsBack_top (by decide) (by decide) (by decide) (by decide)
    · exact readsBack_emptyPair (stakeLedger_separate (by decide)) (by decide)
    · exact readsBack_top (by decide) (by decide) (by decide) (by decide)
    · exact readsBack_top (by decide) (by decide) (by decide) (by decide)
    · exact readsBack_top (by decide) (by decide) (by decide) (by decide)

/-- The byte strings of the state, a leaf that it does not have, and the keys. -/
def sampleHashed : Set Bytes :=
  {x | x ∈ (sampleStakes.state emptyLeafState).hashed sampleHost ∨ x = 0 :: sampleMemberText "b" ∨
    x ∈ [samplePubkey 'c', samplePubkey 'd', STAKE_TOTAL_PUBKEY].map sampleKeyPreimage}

theorem collisionFree_sampleStakes : CollisionFree sampleHost.sha256 sampleHashed := by
  refine collisionFree_of_readsBack_keys stakeLedger
    ([samplePubkey 'c', samplePubkey 'd', STAKE_TOTAL_PUBKEY].map sampleKeyPreimage)
    (by decide) (by decide) fun x hx => ?_
  obtain ⟨-, hb, -⟩ := byteSum_sampleTexts
  rcases hx with hx | rfl | hx
  · exact .inl (readsBack_sampleStakes hx)
  · left
    refine readsBack_leaf ?_ ?_ ?_ (stakeLedger_separate ?_) <;> simp only [hb]
    · rfl
    · decide
    · decide
    · decide
  · exact .inr hx

/-- The sparse tree of the stakes. -/
def sampleStakesTree : SparseMerkleTree := sampleStakes.leaves.tree sampleHost

/-- A served row with the weight of the validator. -/
def servedRow (pubkey source : String) (leaf compressed : Js) : Js :=
  obj [("pubkey", str pubkey), ("source", str source), ("weight", str sampleWeight),
    ("smt_proof", obj [("leaf_value", leaf), ("compressed", compressed)])]

/-- A served capability of one row, with a proof of the total. -/
def servedCapability (row leaf compressed : Js) : Js :=
  obj [("validators", arr [row]), ("total", str sampleWeight),
    ("total_proof", obj [("leaf_value", leaf), ("compressed", compressed)])]

/-- A served set of that capability. -/
def servedSet (root path capability : Js) : Js :=
  obj [("stakes_root", root), ("sub_root_path", path),
    ("capabilities", obj [(sampleCapability, capability)])]

/-- The set that is returned for one row. -/
def returnedSet (pubkey source : String) : ProvenSet :=
  ⟨⟨[obj [("pubkey", str pubkey), ("source", str source), ("weight", str sampleWeight)]], false⟩,
    str sampleWeight⟩

/-- The same set, with its strings. -/
def returnedSpelling (pubkey source : String) : SpelledSet :=
  ⟨[⟨.ofText pubkey, .ofText source, .ofText sampleWeight⟩], str sampleWeight⟩

section Served

variable {pubkey source : String} {leaf compressed totalLeaf totalCompressed root path : Js}
  {key : Digest} {text : Bytes}

theorem memberClaim_servedRow : memberClaim (servedRow pubkey source leaf compressed) =
    ⟨pubkey, stakeMemberText source (str sampleWeight), leaf, compressed⟩ := by
  simp [memberClaim, servedRow, member, Loop.lookup_cons]

theorem totalClaim_servedCapability (row : Js) :
    totalClaim (servedCapability row totalLeaf totalCompressed) =
      ⟨STAKE_TOTAL_PUBKEY, stakeTotalText (str sampleWeight), totalLeaf, totalCompressed⟩ := by
  simp [totalClaim, servedCapability, member, Loop.lookup_cons]

theorem stakeClaims_servedCapability (row : Js) :
    stakeClaims (servedCapability row totalLeaf totalCompressed) = [memberClaim row,
      ⟨STAKE_TOTAL_PUBKEY, stakeTotalText (str sampleWeight), totalLeaf, totalCompressed⟩] := by
  rw [← totalClaim_servedCapability row]
  rfl

theorem memberChecks_servedRow (hkey : stakeKey sampleHost pubkey sampleCapability = some key)
    (htext : stakeMemberText source (str sampleWeight) = some text)
    (hleaf : lowerHex sampleHost leaf = toHex (leafHash sampleHost text).bytes)
    (hproof : verifyCompressedSmtProof sampleHost root key leaf compressed = some true) :
    ∀ check ∈ memberChecks sampleHost root sampleCapability
      (servedRow pubkey source leaf compressed), check = some none := by
  have hpubkey : ((servedRow pubkey source leaf compressed).field "pubkey").toText = pubkey :=
    toText_str _
  have hsource : ((servedRow pubkey source leaf compressed).field "source").toText = source :=
    toText_str _
  have hsmt : (servedRow pubkey source leaf compressed).get "smt_proof" =
      some (obj [("leaf_value", leaf), ("compressed", compressed)]) := rfl
  have hsmt' : (servedRow pubkey source leaf compressed).field "smt_proof" =
      obj [("leaf_value", leaf), ("compressed", compressed)] := rfl
  have hweight : (servedRow pubkey source leaf compressed).field "weight" = str sampleWeight := rfl
  have hlv : (obj [("leaf_value", leaf), ("compressed", compressed)]).getIf "leaf_value" = leaf :=
    rfl
  have hlv' : (obj [("leaf_value", leaf), ("compressed", compressed)]).get "leaf_value" =
      some leaf := rfl
  have hc : (obj [("leaf_value", leaf), ("compressed", compressed)]).get "compressed" =
      some compressed := rfl
  simp only [memberChecks, hpubkey, hsource, hweight, hsmt, hsmt', stakeMemberLeaf_eq, htext, hkey,
    hlv, hlv', hc, hproof, hleaf, List.mem_cons, List.not_mem_nil, or_false, forall_eq_or_imp,
    forall_eq, refuse_eq_pass_iff, Option.map_some, Option.bind_eq_bind, Option.bind_some]
  simp

theorem totalChecks_servedCapability (row : Js)
    (hleaf : lowerHex sampleHost totalLeaf = toHex (leafHash sampleHost sampleTotalText).bytes)
    (hproof : verifyCompressedSmtProof sampleHost root (sampleStakeKey STAKE_TOTAL_PUBKEY) totalLeaf
      totalCompressed = some true) :
    ∀ check ∈ totalChecks sampleHost root sampleCapability
      (servedCapability row totalLeaf totalCompressed), check = some none := by
  have htp : (servedCapability row totalLeaf totalCompressed).field "total_proof" =
      obj [("leaf_value", totalLeaf), ("compressed", totalCompressed)] := rfl
  have htotal : (servedCapability row totalLeaf totalCompressed).field "total" =
      str sampleWeight := rfl
  have htruthy : (obj [("leaf_value", totalLeaf), ("compressed", totalCompressed)]).truthy = true :=
    rfl
  have hlv : (obj [("leaf_value", totalLeaf), ("compressed", totalCompressed)]).field "leaf_value" =
      totalLeaf := rfl
  have hc : (obj [("leaf_value", totalLeaf), ("compressed", totalCompressed)]).field "compressed" =
      totalCompressed := rfl
  simp only [totalChecks, htp, htruthy, if_true, htotal, stakeTotalLeaf_eq,
    stakeTotalText_sample.2, stakeKey_sampleHost (.inr (.inr rfl)), hlv, hc, hproof, hleaf,
    List.mem_cons, List.not_mem_nil, or_false, forall_eq_or_imp, forall_eq, refuse_eq_pass_iff,
    Option.map_some, Option.bind_eq_bind, Option.bind_some]
  simp

theorem provenSet_servedCapability :
    provenSet (servedCapability (servedRow pubkey source leaf compressed) totalLeaf
      totalCompressed) = returnedSet pubkey source := by
  have hrow : provenRow (servedRow pubkey source leaf compressed) =
      obj [("pubkey", str pubkey), ("source", str source), ("weight", str sampleWeight)] := by
    simp [provenRow, servedRow, member, Loop.lookup_cons]
  have htext : canonicalAmount (str sampleWeight).toText = some sampleWeight := by
    rw [toText_str]
    decide
  have hrows : capabilityRows (servedCapability (servedRow pubkey source leaf compressed) totalLeaf
      totalCompressed) = some [servedRow pubkey source leaf compressed] := rfl
  have htruthy : ((servedCapability (servedRow pubkey source leaf compressed) totalLeaf
      totalCompressed).field "total_proof").truthy = true := rfl
  have htotal : (servedCapability (servedRow pubkey source leaf compressed) totalLeaf
      totalCompressed).field "total" = str sampleWeight := rfl
  rw [provenSet, hrows, if_pos htruthy, htotal, htext, Option.getD_some, Option.getD_some,
    List.map_singleton, hrow, returnedSet]

theorem of_servedCapability :
    SpelledSet.of (RawJs.ofJs (servedCapability (servedRow pubkey source leaf compressed) totalLeaf
      totalCompressed)) = returnedSpelling pubkey source := by
  have hrows : listedRows (RawJs.ofJs (servedCapability (servedRow pubkey source leaf compressed)
      totalLeaf totalCompressed)) = [⟨.ofText pubkey, .ofText source, .ofText sampleWeight⟩] := rfl
  rw [SpelledSet.of, hrows, RawJs.text_ofJs, provenSet_servedCapability]
  rfl

/-- A served set whose row, total and sub-root pass their checks is verified. -/
theorem verifyValidatorSetProof_servedSet {trusted : Js} (hpath : path.truthy = true)
    (hslot : otherSlot (path.field "index") "stakes_root" = false)
    (hbind : subRootBinds sampleHost trusted root path = some true)
    (hkey : stakeKey sampleHost pubkey sampleCapability = some key)
    (htext : stakeMemberText source (str sampleWeight) = some text)
    (hleaf : lowerHex sampleHost leaf = toHex (leafHash sampleHost text).bytes)
    (hproof : verifyCompressedSmtProof sampleHost root key leaf compressed = some true)
    (hleaf' : lowerHex sampleHost totalLeaf = toHex (leafHash sampleHost sampleTotalText).bytes)
    (hproof' : verifyCompressedSmtProof sampleHost root (sampleStakeKey STAKE_TOTAL_PUBKEY) totalLeaf
      totalCompressed = some true) :
    verifyValidatorSetProof sampleHost (servedSet root path
        (servedCapability (servedRow pubkey source leaf compressed) totalLeaf totalCompressed))
        trusted = ⟨true, [(sampleCapability, returnedSet pubkey source)], none⟩ := by
  have hmember := memberChecks_servedRow hkey htext hleaf hproof
  have htotal := totalChecks_servedCapability (servedRow pubkey source leaf compressed) hleaf' hproof'
  have hset : provenSet (servedCapability (servedRow pubkey source leaf compressed) totalLeaf
      totalCompressed) = returnedSet pubkey source := provenSet_servedCapability
  have hcapability : capabilityChecks sampleHost root sampleCapability
      (servedCapability (servedRow pubkey source leaf compressed) totalLeaf totalCompressed) =
        memberChecks sampleHost root sampleCapability (servedRow pubkey source leaf compressed) ++
          totalChecks sampleHost root sampleCapability
            (servedCapability (servedRow pubkey source leaf compressed) totalLeaf
              totalCompressed) := by
    rw [capabilityChecks, show capabilityRows (servedCapability (servedRow pubkey source leaf
      compressed) totalLeaf totalCompressed) = some [servedRow pubkey source leaf compressed] from
      rfl]
    simp only [List.flatMap_singleton]
  generalize servedCapability (servedRow pubkey source leaf compressed) totalLeaf totalCompressed =
    capability at htotal hset hcapability
  have hrun : runChecks (validatorSetChecks sampleHost (servedSet root path capability) trusted) =
      some none := by
    refine runChecks_eq_pass_iff.2 (List.forall_mem_append.2 ⟨?_, ?_⟩)
    · have hmalformed : malformedProof (servedSet root path capability) "capabilities" =
          !path.truthy := by
        simp [malformedProof, servedSet, truthy, member, Loop.lookup_cons]
      have hpath' : (servedSet root path capability).field "sub_root_path" = path := rfl
      have hroot : (servedSet root path capability).field "stakes_root" = root := rfl
      simp [hmalformed, hpath, hpath', hroot, hslot, hbind]
    · intro check hcheck
      obtain ⟨e, he, hcheck⟩ := List.mem_flatMap.1 hcheck
      cases List.mem_singleton.1 he
      have hcheck : check ∈ capabilityChecks sampleHost root sampleCapability capability := hcheck
      rw [hcapability] at hcheck
      rcases List.mem_append.1 hcheck with hcheck | hcheck
      · exact hmember check hcheck
      · exact htotal check hcheck
  rw [verifyValidatorSetProof, hrun, ← hset]
  rfl

/-- What checking the claims of a served set hashes. -/
theorem mem_claimsHashed_servedSet {row : Js} {x : Bytes}
    (hx : x ∈ claimsHashed sampleHost sampleCapability
      (servedSet root path (servedCapability row totalLeaf totalCompressed))) :
    x ∈ (memberClaim row).hashed sampleHost sampleCapability root path ∨
      x ∈ StakeClaim.hashed sampleHost sampleCapability
        ⟨STAKE_TOTAL_PUBKEY, stakeTotalText (str sampleWeight), totalLeaf, totalCompressed⟩ root
          path := by
  obtain ⟨c, hc, q, hq, hx⟩ := hx
  cases List.mem_singleton.1 hc
  rw [stakeClaims_servedCapability] at hq
  rcases List.mem_cons.1 hq with rfl | hq
  · exact .inl hx
  · cases List.mem_singleton.1 hq
    exact .inr hx

end Served

theorem joinFields_sampleKey {pubkey : String}
    (h : pubkey = samplePubkey 'c' ∨ pubkey = samplePubkey 'd' ∨ pubkey = STAKE_TOTAL_PUBKEY) :
    joinFields ["XCHAIN_STK", pubkey, sampleCapability] = some (sampleKeyPreimage pubkey) := by
  rcases h with rfl | rfl | rfl <;> decide

example : stakeKey sampleHost "" sampleCapability ≠ none := by decide

/-- A leaf of the stakes tree is hashed with the state. -/
theorem mem_hashed_of_mem_entries {text : Bytes} {key : Digest}
    (h : (key, text) ∈ sampleStakes.leaves.entries) :
    0 :: text ∈ (sampleStakes.state emptyLeafState).hashed sampleHost :=
  List.mem_append_left _ (List.mem_flatMap.2 ⟨"stakes_root", .tail _ (.head _),
    List.mem_append_left _ (List.mem_map.2 ⟨(key, text), h, rfl⟩)⟩)

theorem hashed_sampleStakesTree_subset {x : Bytes} (hx : x ∈ sampleStakesTree.hashed sampleHost) :
    x ∈ (sampleStakes.state emptyLeafState).hashed sampleHost :=
  List.mem_append_left _ (List.mem_flatMap.2 ⟨"stakes_root", .tail _ (.head _),
    List.mem_append_right _ hx⟩)

/-- The path that the sub-root is served with. -/
def sampleStakesPath : Js :=
  servedPath 1 ((sampleStakes.state emptyLeafState).topSiblings sampleHost 1)

/-- The sub-root as it is served. -/
def sampleStakesRoot : Js := str (sampleStakesTree.rootHex sampleHost)

/-- The proof of the total. -/
def sampleTotalProof : SmtProof :=
  sampleStakesTree.prove sampleHost (sampleStakeKey STAKE_TOTAL_PUBKEY)

/-- A served set of one row next to the committed total. -/
def sampleProof (pubkey source : String) (leaf compressed : Js) : Js :=
  servedSet sampleStakesRoot sampleStakesPath
    (servedCapability (servedRow pubkey source leaf compressed) sampleTotalProof.leaf_value
      sampleTotalProof.compressed)

theorem subRootBinds_sampleStakes :
    otherSlot (sampleStakesPath.field "index") "stakes_root" = false ∧
      subRootBinds sampleHost (hexText ((sampleStakes.state emptyLeafState).root sampleHost))
        sampleStakesRoot sampleStakesPath = some true ∧
      subRootHashed sampleHost sampleStakesRoot sampleStakesPath ⊆
        {x | x ∈ (sampleStakes.state emptyLeafState).hashed sampleHost} := by
  have h := subRootBinds_topSiblings (H := sampleHost)
    (σ := sampleStakes.state emptyLeafState) 1 "stakes_root" rfl rfl
  rw [CommittedStakes.state_stakes_root] at h
  exact h

/-- Checking a claim hashes nothing outside the sample. -/
theorem hashed_claim_subset {q : StakeClaim}
    (hpubkey : q.pubkey = samplePubkey 'c' ∨ q.pubkey = samplePubkey 'd' ∨
      q.pubkey = STAKE_TOTAL_PUBKEY)
    (htext : ∀ text, q.text = some text → 0 :: text ∈ sampleHashed)
    (hproof : verifyCompressedSmtProofHashed sampleHost (sampleStakeKey q.pubkey) q.leaf
      q.compressed ⊆ {x | x ∈ sampleStakesTree.hashed sampleHost}) :
    q.hashed sampleHost sampleCapability sampleStakesRoot sampleStakesPath ⊆ sampleHashed := by
  rintro x ((hx | ⟨text, ht, rfl⟩) | ⟨key, hkey, hx⟩)
  · have hx : joinFields ["XCHAIN_STK", q.pubkey, sampleCapability] = some x := hx
    rw [joinFields_sampleKey hpubkey] at hx
    cases hx
    refine .inr (.inr (List.mem_map_of_mem ?_))
    rcases hpubkey with h | h | h <;> simp [h]
  · exact htext text ht
  · rw [stakeKey_sampleHost hpubkey] at hkey
    cases hkey
    rcases hx with hx | hx
    · exact .inl (hashed_sampleStakesTree_subset (hproof hx))
    · exact .inl (subRootBinds_sampleStakes.2.2 hx)

/-- Checking a served set hashes nothing outside the sample. -/
theorem claimsHashed_servedSet {pubkey source : String} {leaf compressed : Js}
    (hpubkey : pubkey = samplePubkey 'c' ∨ pubkey = samplePubkey 'd')
    (hsource : source = "a" ∨ source = "b")
    (hproof : verifyCompressedSmtProofHashed sampleHost (sampleStakeKey pubkey) leaf compressed ⊆
      {x | x ∈ sampleStakesTree.hashed sampleHost}) :
    claimsHashed sampleHost sampleCapability (sampleProof pubkey source leaf compressed) ⊆
      sampleHashed := by
  intro x hx
  rcases mem_claimsHashed_servedSet hx with hx | hx
  · rw [memberClaim_servedRow] at hx
    refine hashed_claim_subset (q := ⟨_, _, _, _⟩) (by tauto) (fun text htext => ?_) hproof hx
    rw [stakeMemberText_sample hsource] at htext
    cases htext
    rcases hsource with rfl | rfl
    · exact .inl (mem_hashed_of_mem_entries (.head _))
    · exact .inr (.inl rfl)
  · have htotal : verifyCompressedSmtProofHashed sampleHost (sampleStakeKey STAKE_TOTAL_PUBKEY)
        sampleTotalProof.leaf_value sampleTotalProof.compressed ⊆
          {x | x ∈ sampleStakesTree.hashed sampleHost} :=
      (sampleStakesTree.verifyCompressedSmtProof_prove sampleHost _).2
    refine hashed_claim_subset (q := ⟨STAKE_TOTAL_PUBKEY, stakeTotalText (str sampleWeight),
      sampleTotalProof.leaf_value, sampleTotalProof.compressed⟩) (.inr (.inr rfl))
      (fun text htext => ?_) htotal hx
    rw [stakeTotalText_sample.2] at htext
    cases htext
    exact .inl (mem_hashed_of_mem_entries (.tail _ (.head _)))

theorem keysHashed_sampleStakes {x : Bytes} (hx : x ∈ sampleStakes.keysHashed) :
    x ∈ [samplePubkey 'c', samplePubkey 'd', STAKE_TOTAL_PUBKEY].map sampleKeyPreimage := by
  obtain ⟨r, hr, pk, hpk, hx⟩ := hx
  cases List.mem_singleton.1 hr
  rcases hpk with rfl | rfl
  · rw [joinFields_sampleKey (.inl rfl)] at hx
    cases hx
    exact .head _
  · rw [joinFields_sampleKey (.inr (.inr rfl))] at hx
    cases hx
    exact .tail _ (.tail _ (.head _))

theorem collisionFree_servedSet {proof : Js}
    (h : claimsHashed sampleHost sampleCapability proof ⊆ sampleHashed) :
    CollisionFree sampleHost.sha256
      ({x | x ∈ (sampleStakes.state emptyLeafState).hashed sampleHost} ∪ sampleStakes.keysHashed ∪
        claimsHashed sampleHost sampleCapability proof) :=
  collisionFree_sampleStakes.mono (Set.union_subset (Set.union_subset (fun _ hx => .inl hx)
    fun _ hx => .inr (.inr (keysHashed_sampleStakes hx))) h)

theorem get_sampleStakesTree {pubkey : String} {text : Option Bytes}
    (h : sampleStakes.leaves.get (sampleStakeKey pubkey) = text) :
    sampleStakesTree.get (sampleStakeKey pubkey) = text.map (leafHash sampleHost) := by
  rw [sampleStakesTree, LeafMap.get_tree, h]

example : (sampleStakes.leaves.get (sampleStakeKey STAKE_TOTAL_PUBKEY)).isSome = true := by
  decide

/-- The checkpoint that one pubkey signs. -/
def sampleCheckpoint (pubkey : String) : Js :=
  withSignatures regtestFields [sampleSignature pubkey]

theorem leaf_value_sampleTotalProof :
    sampleTotalProof.leaf_value = hexText (leafHash sampleHost sampleTotalText).bytes := by
  rw [sampleTotalProof, SparseMerkleTree.prove, get_sampleStakesTree
    (show _ = some sampleTotalText by decide)]
  rfl

/-- A row whose leaf is accepted gives a verified set. -/
theorem verifyValidatorSetProof_sampleProof {pubkey source : String} {leaf compressed : Js}
    (hpubkey : pubkey = samplePubkey 'c' ∨ pubkey = samplePubkey 'd')
    (hsource : source = "a" ∨ source = "b")
    (hleaf : lowerHex sampleHost leaf = toHex (leafHash sampleHost (sampleMemberText source)).bytes)
    (hproof : verifyCompressedSmtProof sampleHost sampleStakesRoot (sampleStakeKey pubkey) leaf
      compressed = some true) :
    verifyValidatorSetProof sampleHost (sampleProof pubkey source leaf compressed)
        (hexText ((sampleStakes.state emptyLeafState).root sampleHost)) =
      ⟨true, [(sampleCapability, returnedSet pubkey source)], none⟩ := by
  have htotal : lowerHex sampleHost sampleTotalProof.leaf_value =
      toHex (leafHash sampleHost sampleTotalText).bytes := by
    rw [leaf_value_sampleTotalProof, lowerHex_hexText]
  exact verifyValidatorSetProof_servedSet (truthy_servedPath _ _) subRootBinds_sampleStakes.1
    subRootBinds_sampleStakes.2.1 (stakeKey_sampleHost (by tauto)) (stakeMemberText_sample hsource)
    hleaf hproof htotal (sampleStakesTree.verifyCompressedSmtProof_prove sampleHost _).1

/-- A verified set of one row is returned with its strings. -/
theorem mem_capabilities_sampleProof {pubkey source : String} {leaf compressed root : Js}
    (h : (verifyValidatorSetProof sampleHost (sampleProof pubkey source leaf compressed)
      root).verified = true) :
    (sampleCapability, returnedSpelling pubkey source) ∈ (SpelledSet.verifyValidatorSetProof
      sampleHost (RawJs.ofJs (sampleProof pubkey source leaf compressed)) root).capabilities := by
  have hentries : ((RawJs.ofJs (sampleProof pubkey source leaf compressed)).field
      "capabilities").ownEntries = [(sampleCapability, RawJs.ofJs (servedCapability
        (servedRow pubkey source leaf compressed) sampleTotalProof.leaf_value
          sampleTotalProof.compressed))] := rfl
  rw [SpelledSet.verifyValidatorSetProof, RawJs.text_ofJs, if_pos h, hentries]
  exact List.mem_singleton.2 (congrArg (Prod.mk sampleCapability) of_servedCapability.symm)

/-- One row has one source. -/
theorem oneSpelling_sampleProof (pubkey source : String) (leaf compressed : Js) :
    OneSpelling sampleCapability (RawJs.ofJs (sampleProof pubkey source leaf compressed)) := by
  intro c hc
  have hentries : ((RawJs.ofJs (sampleProof pubkey source leaf compressed)).field
      "capabilities").ownEntries = [(sampleCapability, RawJs.ofJs (servedCapability
        (servedRow pubkey source leaf compressed) sampleTotalProof.leaf_value
          sampleTotalProof.compressed))] := rfl
  rw [hentries] at hc
  cases List.mem_singleton.1 hc
  rintro _ ⟨v, hv, rfl⟩ _ ⟨w, hw, rfl⟩ -
  cases List.mem_singleton.1 hv
  cases List.mem_singleton.1 hw
  rfl

/-- `provenQuorum_sound` at the proof and the signature of the one validator. -/
theorem provenQuorum_sound_sampleStakes :
    ∃ canonical, canonicalCheckpoint sampleHost (sampleCheckpoint (samplePubkey 'c')) =
        some canonical ∧
      Quorum.TwoThirds (sampleStakes.stake sampleCapability) (sampleStakes.sources sampleCapability)
        (sampleStakes.signingSources sampleCapability sampleHost canonical
          (signatureEntries sampleHost
            ((sampleCheckpoint (samplePubkey 'c')).field "validator_signatures"))) := by
  obtain ⟨hproof, hhashed⟩ := sampleStakesTree.verifyCompressedSmtProof_prove sampleHost
    (sampleStakeKey (samplePubkey 'c'))
  have hleaf : (sampleStakesTree.prove sampleHost (sampleStakeKey (samplePubkey 'c'))).leaf_value =
      hexText (leafHash sampleHost (sampleMemberText "a")).bytes := by
    rw [SparseMerkleTree.prove, get_sampleStakesTree
      (show _ = some (sampleMemberText "a") by decide)]
    rfl
  rw [hleaf] at hproof hhashed
  have hverified := verifyValidatorSetProof_sampleProof (.inl rfl) (.inl rfl)
    (lowerHex_hexText sampleHost _) hproof
  have hclaims := claimsHashed_servedSet (.inl rfl) (.inl rfl) hhashed
  have hcapabilities := mem_capabilities_sampleProof (congrArg ValidatorSetVerdict.verified hverified)
  refine provenQuorum_sound sampleHost BigNum.rational sampleStakes emptyLeafState sampleCapability
    _ (sampleCheckpoint (samplePubkey 'c')) (returnedSpelling (samplePubkey 'c') "a")
    ⟨fun _ _ _ => rfl, fun _ _ _ => rfl⟩ (collisionFree_servedSet (by rwa [RawJs.text_ofJs])) ?_
    (oneSpelling_sampleProof _ _ _ _) hcapabilities (by decide +kernel)
  rw [RawJs.text_ofJs]
  -- no claimed leaf is an array
  rintro ⟨c, hc, q, hq, key, text, x, β, -, -, -, harr, -⟩
  cases List.mem_singleton.1 hc
  rw [stakeClaims_servedCapability, memberClaim_servedRow, leaf_value_sampleTotalProof] at hq
  simp only [List.mem_cons, List.not_mem_nil, or_false] at hq
  rcases hq with rfl | rfl <;> cases harr

/-- **A quorum that the prover lowered.**  The set lists one validator that is not registered, with
the weight of the whole stake.  Its leaf is the array of the text of the expected leaf hash, which
`toBuf` reads as the zero byte that the empty leaf begins with; the total is the committed one.
No registered validator signed. -/
theorem provenQuorum_lowered :
    ∃ proof : RawJs, CollisionFree sampleHost.sha256
        ({x | x ∈ (sampleStakes.state emptyLeafState).hashed sampleHost} ∪ sampleStakes.keysHashed ∪
          claimsHashed sampleHost sampleCapability proof.text) ∧
      (sampleCapability, returnedSpelling (samplePubkey 'd') "b") ∈
        (SpelledSet.verifyValidatorSetProof sampleHost proof
          (hexText ((sampleStakes.state emptyLeafState).root sampleHost))).capabilities ∧
      (SpelledSet.verifyCheckpointWithProvenSet sampleHost BigNum.rational
        (sampleCheckpoint (samplePubkey 'd')) (returnedSpelling (samplePubkey 'd') "b")).valid =
          true ∧
      ¬∃ canonical, canonicalCheckpoint sampleHost (sampleCheckpoint (samplePubkey 'd')) =
          some canonical ∧
        Quorum.TwoThirds (sampleStakes.stake sampleCapability)
          (sampleStakes.sources sampleCapability)
          (sampleStakes.signingSources sampleCapability sampleHost canonical
            (signatureEntries sampleHost
              ((sampleCheckpoint (samplePubkey 'd')).field "validator_signatures"))) := by
  -- the byte of the array is the outer byte of the empty leaf
  have hbyte : leafBytes sampleHost
      (arr [hexText (leafHash sampleHost (sampleMemberText "b")).bytes]) =
      some [outerByte (keyBit (sampleStakeKey (samplePubkey 'd')) 255)
        (sampleStakesTree.endLeaf sampleHost (sampleStakeKey (samplePubkey 'd')))] := by
    have hnone : sampleStakesTree.get (sampleStakeKey (samplePubkey 'd')) = none :=
      get_sampleStakesTree (show _ = none by decide)
    have hempty : EMPTY sampleHost 0 = sampleDigest 0 := EMPTY_sampleHost (by decide)
    rw [SparseMerkleTree.endLeaf, hnone, Option.getD_none, hempty]
    decide
  obtain ⟨sibs, hlen, hplain⟩ := sampleStakesTree.exists_verifySmtProof_outerByte sampleHost _ hbyte
  obtain ⟨hproof, hhashed⟩ := SparseMerkleTree.verifyCompressedSmtProof_compress hlen hplain
  have hleaf : lowerHex sampleHost
      (arr [hexText (leafHash sampleHost (sampleMemberText "b")).bytes]) =
        toHex (leafHash sampleHost (sampleMemberText "b")).bytes := by
    rw [← lowerHex_hexText sampleHost]
    simp [lowerHex, Js.elemText, Js.toText, Js.joinTexts, Js.isNullish, hexText]
  have hverified := verifyValidatorSetProof_sampleProof (.inr rfl) (.inr rfl) hleaf hproof
  have hclaims := claimsHashed_servedSet (.inr rfl) (.inr rfl) hhashed
  have hcapabilities := mem_capabilities_sampleProof (congrArg ValidatorSetVerdict.verified hverified)
  refine ⟨_, collisionFree_servedSet (by rwa [RawJs.text_ofJs]), hcapabilities, by decide +kernel, ?_⟩
  rintro ⟨canonical, -, hquorum⟩
  have hnone : sampleStakes.signingSources sampleCapability sampleHost canonical
      (signatureEntries sampleHost
        ((sampleCheckpoint (samplePubkey 'd')).field "validator_signatures")) = ∅ := by
    refine Finset.eq_empty_of_forall_notMem fun s hs => ?_
    obtain ⟨r, hr, -, -, e, he, hpk, -⟩ := StakeTable.mem_signingSources.1 hs
    cases List.mem_singleton.1 hr
    cases List.mem_singleton.1 he
    revert hpk
    decide
  rw [hnone, Quorum.TwoThirds, Finset.sum_empty, mul_zero] at hquorum
  exact absurd hquorum (not_lt.2 (mul_nonneg (by norm_num)
    (Finset.sum_nonneg fun s _ => StakeTable.stake_nonneg s)))

end XChainSdk
