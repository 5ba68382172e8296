import XChainSdk.Checkpoint.Verify
import XChainSdk.Merkle.Primitives

/-!
# Quorum over a proven validator set

* `totalStake`, `exactStakeTotal` : the source-deduped total of a set; `none` is a thrown error.
* `verifyCheckpointWithProvenSet` : the verdict over a set whose rows and total were proven
  against a trusted state root, with the total as a cross-check.
-/

namespace XChainSdk

open Hash Js

variable (H : Host) (B : BigNum)

/-- One row of the loop of `totalStake`; a malformed row throws. -/
def totalRow (weightBySource : List (String × String)) (v : Js) :
    Option (List (String × String)) :=
  match rowSource v with
  | none => none
  | some src =>
    if (weightBySource.lookup src).isSome then some weightBySource
    else (rowWeight v).map fun ws => weightBySource ++ [(src, ws)]

/-- `totalStake` -/
def totalStake (V : Snapshot) : Option ℚ :=
  if V.truncated then none
  else (V.rows.foldlM totalRow []).bind fun weightBySource =>
    weightBySource.foldlM (addWeight B) 0

/-- The first weight of each source, as its own text. -/
def firstWeight (m : List (String × String)) (v : Js) : List (String × String) :=
  let src := (v.field "source").toText
  if (m.lookup src).isSome then m else m ++ [(src, (v.field "weight").toText)]

/-- `exactStakeTotal` -/
def exactStakeTotal (V : Snapshot) : Option String :=
  (totalStake B V).bind fun _ =>
    sumCanonicalAmounts ((V.rows.foldl firstWeight []).map Prod.snd)

/-- The `oracle_publish` capability that a validator-set proof returns. -/
structure ProvenSet where
  validators : Snapshot
  total : Js

/-- The lower-cased pubkeys of the proven rows. -/
def provenPubkeys (rows : List Js) : List String :=
  rows.filterMap fun v =>
    if v.truthy && !(v.field "pubkey").isNullish then
      some (H.toLowerCase (v.field "pubkey").toText)
    else none

/-- One entry of the signature loop over a proven set. -/
def countProvenSignature (canonical : String) (provenPks : List String) (seenPk : List String)
    (sig : Js) : List String :=
  let pk := signaturePubkey H sig
  if seenPk.contains pk then seenPk
  else if !provenPks.contains pk then seenPk
  else if !verifySignature H canonical (signatureText sig) pk then seenPk
  else seenPk ++ [pk]

/-- The result of `verifyCheckpointWithProvenSet`. -/
structure ProvenVerdict where
  valid : Bool
  total : String
  deriving DecidableEq

/-- `verifyCheckpointWithProvenSet` -/
def verifyCheckpointWithProvenSet (cp : Js) (proven : Option ProvenSet) : ProvenVerdict :=
  if !commitmentActive cp then ⟨false, "0"⟩
  else if !isStakeWeightedQuorumActive (cp.field "snapshot_block") (cp.field "network") then
    ⟨false, "0"⟩
  else if commitmentMissing cp || supersessionDisallowed cp then ⟨false, "0"⟩
  else match canonicalCheckpoint H cp with
    | none => ⟨false, "0"⟩
    | some canonical =>
      let validators := (proven.map ProvenSet.validators).getD ⟨[], false⟩
      let provenPks := provenPubkeys H validators.rows
      let sigs := signatureEntries H (cp.field "validator_signatures")
      let validSigners := sigs.foldl (countProvenSignature H canonical provenPks) []
      if meetsStakeThreshold H B validators (validSigners.map .str) then
        match exactStakeTotal B validators with
        | none => ⟨false, "0"⟩
        | some total =>
          let committed := ((proven.map ProvenSet.total).getD .undefined).or (.str "0")
          match (canonicalAmount committed.toText).bind amountUnits with
          | none => ⟨false, total⟩
          | some c => ⟨amountUnits total == some c, total⟩
      else ⟨false, "0"⟩

variable {H B}

/-! ### The two signature loops -/

/-- The loop over a proven set counts as the loop of `verifyCheckpoint` does: an empty pubkey has
no good signature. -/
theorem countProvenSignature_eq (canonical : String) (pks seen : List String) (s : Js) :
    countProvenSignature H canonical pks seen s = countSignature H canonical pks seen s := by
  simp only [countProvenSignature, countSignature]
  by_cases hver : verifySignature H canonical (signatureText s) (signaturePubkey H s) = true
  · have hne := ne_empty_of_verifySignature hver
    by_cases h1 : signaturePubkey H s ∈ seen <;> by_cases h2 : signaturePubkey H s ∈ pks <;>
      simp [h1, h2, hne, hver]
  · have hver' := Bool.eq_false_iff.2 hver
    simp [hver']

theorem foldl_countProvenSignature (canonical : String) (pks : List String) (sigs : List Js) :
    sigs.foldl (countProvenSignature H canonical pks) [] =
      validSigners H canonical pks sigs := by
  have hstep : countProvenSignature H canonical pks = countSignature H canonical pks := by
    funext seen s
    exact countProvenSignature_eq canonical pks seen s
  rw [validSigners, hstep]

/-- Only members that can verify a signature matter to the loop. -/
theorem validSigners_congr {canonical : String} {pks pks' : List String}
    (h : ∀ pk, isHexText 64 pk = true → (pk ∈ pks ↔ pk ∈ pks')) (sigs : List Js) :
    validSigners H canonical pks sigs = validSigners H canonical pks' sigs := by
  have hstep : countSignature H canonical pks = countSignature H canonical pks' := by
    funext seen s
    simp only [countSignature]
    by_cases hver : verifySignature H canonical (signatureText s) (signaturePubkey H s) = true
    · have hmem := h _ (isHexText_pubkey_of_verifySignature hver)
      have hcontains : pks.contains (signaturePubkey H s) =
          pks'.contains (signaturePubkey H s) := by
        rw [Bool.eq_iff_iff, List.contains_iff_mem, List.contains_iff_mem, hmem]
      rw [hcontains]
    · have hver' := Bool.eq_false_iff.2 hver
      simp [hver']
  rw [validSigners, validSigners, hstep]

/-! ### The verdict -/

theorem meetsStakeThreshold_nil (truncated : Bool) (signers : List Js) :
    meetsStakeThreshold H B ⟨[], truncated⟩ signers = false := by
  simp [meetsStakeThreshold, indexStakeSources, sumStakeWeights, Option.filter]

/-- The units of a returned total. -/
theorem committedUnits {t : String} {u : ℕ} (h : amountUnits t = some u) :
    (canonicalAmount ((str t).or (str "0")).toText).bind amountUnits = some u := by
  have hne : t ≠ "" := by
    rintro rfl
    rw [show amountUnits "" = none by decide] at h
    cases h
  have htruthy : (str t).truthy = true := by simpa [truthy] using hne
  obtain ⟨p, hp, -⟩ := Option.map_eq_some_iff.1 h
  have hcanonical : canonicalAmount t = some (String.ofList (p.1 ++ '.' :: p.2)) := by
    rw [canonicalAmount, hp]
    rfl
  rw [Js.or, if_pos htruthy, toText_str, hcanonical, Option.bind_some,
    amountUnits_canonicalAmount hcanonical, h]

/-- What a valid checkpoint shows about itself and the proven set. -/
structure ProvenQuorum (H : Host) (B : BigNum) (cp : Js) (P : ProvenSet) (canonical : String) :
    Prop where
  active : commitmentActive cp = true
  weighted : isStakeWeightedQuorumActive (cp.field "snapshot_block") (cp.field "network") = true
  committed : commitmentMissing cp = false
  supersession : supersessionDisallowed cp = false
  signed : canonicalCheckpoint H cp = some canonical
  meets : meetsStakeThreshold H B P.validators
    ((validSigners H canonical (provenPubkeys H P.validators.rows)
      (signatureEntries H (cp.field "validator_signatures"))).map .str) = true
  total : ∃ total c, exactStakeTotal B P.validators = some total ∧ amountUnits total = some c ∧
    (canonicalAmount (P.total.or (.str "0")).toText).bind amountUnits = some c

/-- **Spec lemma of `verifyCheckpointWithProvenSet`.** -/
theorem verifyCheckpointWithProvenSet_valid {cp : Js} {proven : Option ProvenSet}
    (h : (verifyCheckpointWithProvenSet H B cp proven).valid = true) :
    ∃ P canonical, proven = some P ∧ ProvenQuorum H B cp P canonical := by
  simp only [verifyCheckpointWithProvenSet, foldl_countProvenSignature] at h
  cases hactive : commitmentActive cp with
  | false => simp [hactive] at h
  | true =>
    cases hweighted : isStakeWeightedQuorumActive (cp.field "snapshot_block")
        (cp.field "network") with
    | false => simp [hactive, hweighted] at h
    | true =>
      simp only [hactive, hweighted, Bool.not_true, Bool.false_eq_true, if_false] at h
      split_ifs at h with hstruct
      rw [Bool.or_eq_true, not_or, Bool.not_eq_true, Bool.not_eq_true] at hstruct
      cases hcanonical : canonicalCheckpoint H cp with
      | none => simp [hcanonical] at h
      | some canonical =>
        simp only [hcanonical] at h
        split_ifs at h with hmeets
        cases proven with
        | none =>
          rw [show (Option.map ProvenSet.validators none).getD ⟨[], false⟩ = (⟨[], false⟩ : Snapshot)
            from rfl, meetsStakeThreshold_nil] at hmeets
          cases hmeets
        | some P =>
          simp only [Option.map_some, Option.getD_some] at h hmeets
          refine ⟨P, canonical, rfl, hactive, hweighted, hstruct.1, hstruct.2, hcanonical, hmeets, ?_⟩
          cases htotal : exactStakeTotal B P.validators with
          | none => simp [htotal] at h
          | some total =>
            simp only [htotal] at h
            cases hc : (canonicalAmount (P.total.or (.str "0")).toText).bind amountUnits with
            | none => simp [hc] at h
            | some c => exact ⟨total, c, rfl, by simpa [hc] using h, rfl⟩

end XChainSdk
