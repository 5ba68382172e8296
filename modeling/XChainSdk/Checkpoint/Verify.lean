import XChainSdk.Checkpoint.Canonical
import XChainSdk.Consensus.StakeQuorum

/-!
# Checkpoint verification

* `verifySignature` : one Ed25519 signature over a payload.
* `verifyCheckpoint` : the verdict over a supplied validator set, in the count regime or in the
  stake regime, whichever the checkpoint's own `snapshot_block` and network select.
* `mem_validSigners` : the loop collects the members with at least one good signature.
-/

namespace XChainSdk

open Hash Js

variable (H : Host) (B : BigNum)

/-- `verifySignature` -/
def verifySignature (payload sigHex pubkeyHex : String) : Bool :=
  payload != "" && sigHex != "" && pubkeyHex != "" &&
    isHexText 64 pubkeyHex && isHexText 128 sigHex &&
    H.ed25519 (hexDecode pubkeyHex) (hexDecode sigHex) (utf8 payload)

/-- The entry carries the stake fields that the weighted regime requires. -/
def isWeightedEntry (v : Js) : Bool :=
  match v with
  | .obj _ | .arr _ =>
    let source := v.field "source"
    let weight := v.field "weight"
    if source.isNullish || trim source.toText == "" then false
    else if weight.isNullish || trim weight.toText == "" then false
    else match weight.toNumber with
      | .fin w => decide (0 ≤ w)
      | _ => false
  | _ => false

/-- `String(p && p.pubkey !== undefined ? p.pubkey : p)`. -/
def memberText (p : Js) : String :=
  if p.truthy then
    match p.field "pubkey" with
    | .undefined => p.toText
    | pubkey => pubkey.toText
  else p.toText

/-- The lower-cased pubkeys of the supplied set, without repetition. -/
def qualifiedSet (vset : List Js) : List String :=
  (vset.map fun p => H.toLowerCase (memberText p)).dedup

/-- The count quorum of a set of `n` members: `2f + 1`, and at least a majority. -/
def countQuorum (n : ℕ) : ℕ := if n ≤ 1 then 1 else max (2 * ((n - 1) / 3) + 1) ((n + 2) / 2)

/-- The signature entries: an array, or a JSON text of one. -/
def signatureEntries (sigs : Js) : List Js :=
  match sigs with
  | .str s => ((H.parseJson s).getD (.arr [])).elems
  | v => v.elems

/-- `String(s && s.pubkey || '').toLowerCase()`. -/
def signaturePubkey (s : Js) : String := H.toLowerCase ((s.getIf "pubkey").or (.str "")).toText

/-- `String(s && s.sig || '')`. -/
def signatureText (s : Js) : String := ((s.getIf "sig").or (.str "")).toText

/-- One entry of the signature loop.  A pubkey is marked only once its signature verifies, so a
garbage entry cannot suppress a good one. -/
def countSignature (canonical : String) (qualified : List String) (seen : List String) (s : Js) :
    List String :=
  let pk := signaturePubkey H s
  let sig := signatureText s
  if pk == "" || seen.contains pk || !qualified.contains pk then seen
  else if verifySignature H canonical sig pk then seen ++ [pk] else seen

/-- The members whose signature verified, in the order of their first good entry. -/
def validSigners (canonical : String) (qualified : List String) (sigs : List Js) : List String :=
  sigs.foldl (countSignature H canonical qualified) []

/-- The result of `verifyCheckpoint`. -/
structure Verdict where
  valid : Bool
  validSigs : ℕ
  quorum : ℕ
  weighted : Bool
  canonical : Option String
  deriving DecidableEq

/-- `verifyCheckpoint` -/
def verifyCheckpoint (checkpoint : Js) (validators : Snapshot) : Verdict :=
  let vset := validators.rows
  let qualified := qualifiedSet H vset
  let quorum := countQuorum qualified.length
  let weighted := isStakeWeightedQuorumActive (checkpoint.getIf "snapshot_block")
    (checkpoint.getIf "network")
  match canonicalCheckpoint H checkpoint with
  | none => ⟨false, 0, quorum, weighted, none⟩
  | some canonical =>
    if commitmentMissing checkpoint || supersessionDisallowed checkpoint then
      ⟨false, 0, quorum, weighted, some canonical⟩
    else
      let sigs := signatureEntries H (checkpoint.field "validator_signatures")
      let signers := validSigners H canonical qualified sigs
      let valid :=
        if weighted then
          !vset.isEmpty && vset.all isWeightedEntry &&
            meetsStakeThreshold H B validators (signers.map .str)
        else decide (0 < qualified.length) && decide (quorum ≤ signers.length)
      ⟨valid, signers.length, quorum, weighted, some canonical⟩

/-! ### The signature loop -/

/-- The entry carries a good signature of the member `pk`. -/
def SignedBy (canonical : String) (s : Js) (pk : String) : Prop :=
  signaturePubkey H s = pk ∧ verifySignature H canonical (signatureText s) pk = true

instance (canonical : String) (s : Js) (pk : String) : Decidable (SignedBy H canonical s pk) :=
  inferInstanceAs (Decidable (_ ∧ _))

variable {H}

theorem isHexText_pubkey_of_verifySignature {payload sig pk : String}
    (h : verifySignature H payload sig pk = true) : isHexText 64 pk = true := by
  simp only [verifySignature, Bool.and_eq_true] at h
  exact h.1.1.2

theorem ne_empty_of_verifySignature {payload sig pk : String}
    (h : verifySignature H payload sig pk = true) : pk ≠ "" := by
  simp only [verifySignature, Bool.and_eq_true, bne_iff_ne] at h
  exact h.1.1.1.2

/-- What the signature loop holds after the entries `pre`. -/
structure SignersSpec (H : Host) (canonical : String) (qualified : List String) (pre : List Js)
    (seen : List String) : Prop where
  nodup : seen.Nodup
  mem : ∀ pk, pk ∈ seen ↔ pk ∈ qualified ∧ ∃ s ∈ pre, SignedBy H canonical s pk

theorem SignersSpec.step {canonical : String} {qualified pre' : List String} {pre : List Js}
    (h : SignersSpec H canonical qualified pre pre') (s : Js) :
    SignersSpec H canonical qualified (pre ++ [s])
      (countSignature H canonical qualified pre' s) := by
  have hmem : ∀ pk, (∃ t ∈ pre ++ [s], SignedBy H canonical t pk) ↔
      (∃ t ∈ pre, SignedBy H canonical t pk) ∨ SignedBy H canonical s pk := fun pk => by
    simp only [List.mem_append, List.mem_singleton, or_and_right, exists_or, exists_eq_left]
  simp only [countSignature]
  split_ifs with h1 h2
  · refine ⟨h.nodup, fun pk => ?_⟩
    rw [h.mem, hmem]
    refine and_congr_right fun hq => ⟨.inl, fun hs => hs.elim id fun hs => ?_⟩
    -- the entry is skipped although it signs: its member was seen before
    obtain ⟨rfl, hver⟩ := hs
    have hne := ne_empty_of_verifySignature hver
    have hseen : signaturePubkey H s ∈ pre' := by simpa [hne, hq] using h1
    exact ((h.mem _).1 hseen).2
  · simp only [Bool.or_eq_true, beq_iff_eq, List.contains_eq_mem, decide_eq_true_eq,
      Bool.not_eq_true', decide_eq_false_iff_not, not_or, not_not] at h1
    obtain ⟨⟨-, hnew⟩, hq⟩ := h1
    refine ⟨List.nodup_append.2 ⟨h.nodup, by simp, fun a ha b hb hab => hnew ?_⟩, fun pk => ?_⟩
    · rw [List.mem_singleton.1 hb] at hab
      exact hab ▸ ha
    · rw [List.mem_append, h.mem, hmem, List.mem_singleton, and_or_left]
      refine or_congr_right ⟨?_, fun hs => hs.2.1.symm⟩
      rintro rfl
      exact ⟨hq, rfl, h2⟩
  · refine ⟨h.nodup, fun pk => ?_⟩
    rw [h.mem, hmem]
    refine and_congr_right fun _ => ⟨.inl, fun hs => hs.elim id fun hs => ?_⟩
    obtain ⟨rfl, hver⟩ := hs
    exact absurd hver h2

theorem validSigners_spec (canonical : String) (qualified : List String) (sigs : List Js) :
    SignersSpec H canonical qualified sigs (validSigners H canonical qualified sigs) :=
  Loop.foldl_inv (SignersSpec H canonical qualified) ⟨by simp, by simp⟩
    (fun _ s _ h => h.step s) sigs

/-- **Spec lemma of the signature loop.**  It collects the members with a good signature. -/
theorem mem_validSigners {canonical : String} {qualified : List String} {sigs : List Js}
    {pk : String} : pk ∈ validSigners H canonical qualified sigs ↔
      pk ∈ qualified ∧ ∃ s ∈ sigs, SignedBy H canonical s pk :=
  (validSigners_spec canonical qualified sigs).mem pk

end XChainSdk
