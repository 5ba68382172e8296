import XChainSdk.Consensus.Gates
import XChainSdk.Lib.Tokens

/-!
# Canonical bytes of a checkpoint

The string that validators sign, with its three optional suffixes and the equivocation header.

* `canonicalCheckpoint` : the code; `none` is a thrown error.
* `commitmentMissing`, `commitmentActive`, `supersessionDisallowed` : the structural predicates.
* `checkpointTokens`, `canonicalCheckpoint_eq_join` : the string is a list of `|`-free tokens.
-/

namespace XChainSdk

open Js

variable (H : Host) (cp : Js)

/-! ### Supersession suffix -/

/-- `hasSupersedeFields` -/
def hasSupersedeFields : Bool :=
  cp.truthy && (!(cp.field "supersedes_from").isNullish || !(cp.field "rules_digest").isNullish)

/-- `/^[0-9a-f]{n}$/i`. -/
def isHexText (n : ℕ) (s : String) : Bool :=
  s.toList.length == n && s.toList.all fun c => (digitIn 16 c).isSome

/-- `supersedeSuffix`; `none` is a thrown error. -/
def supersedeSuffix : Option String :=
  let hasFrom := cp.truthy && !(cp.field "supersedes_from").isNullish
  let hasDigest := cp.truthy && !(cp.field "rules_digest").isNullish
  if !hasFrom && !hasDigest then some ""
  else if !hasFrom || !hasDigest then none
  else match (cp.field "supersedes_from").toNumber.safeNat?, cp.field "rules_digest" with
    | some n, .str d =>
      if isHexText 64 d then
        some ("|SUPERSEDE|" ++ numberToString (.fin n) ++ "|" ++ H.toLowerCase d)
      else none
    | _, _ => none

/-! ### Canonical string -/

/-- `buildEquivCanonical`: `EQUIV|<ENGINE_TAG>|<ROUND_ID>|<VIEW>||<CONTENT>`. -/
def buildEquivCanonical (engineTag roundId view content : String) : String :=
  "EQUIV|" ++ (engineTag ++ "|" ++ roundId ++ "|" ++ view) ++ "||" ++ content

/-- The roots are appended: the commitment is active and all four fields are present. -/
def appendsRoots : Bool :=
  isCheckpointCommitmentActive (cp.field "snapshot_block") (cp.field "network") &&
    !(cp.field "state_root").isNullish && !(cp.field "block_merkle_root").isNullish &&
    !(cp.field "state_root_version").isNullish && !(cp.field "block_merkle_version").isNullish

/-- The supersession suffix is appended. -/
def appendsSupersession : Bool :=
  isCheckpointSupersedeActive (cp.field "snapshot_block") (cp.field "network") &&
    hasSupersedeFields cp

/-- The folded archive is appended. -/
def appendsFold : Bool := !(cp.field "fold_archive").isNullish

/-- `canonicalCheckpoint`; `none` is a thrown error. -/
def canonicalCheckpoint : Option String :=
  if !cp.truthy then none
  else
    let raw := Tokens.join '|' ["XCHECKPOINT", (cp.field "chain").elemText,
      (cp.field "network").elemText, (cp.field "block_index").toText,
      (cp.field "block_hash").elemText, (cp.field "ledger_hash").elemText,
      (cp.field "actions_hash").elemText, (cp.field "contract_hash").elemText,
      (cp.field "checkpoint_seq").toText, (cp.field "snapshot_block").toText]
    let raw := if appendsRoots cp then
        raw ++ "|" ++ Tokens.join '|' [H.toLowerCase (cp.field "state_root").toText,
          (cp.field "state_root_version").toText,
          H.toLowerCase (cp.field "block_merkle_root").toText,
          (cp.field "block_merkle_version").toText]
      else raw
    (if appendsSupersession cp then supersedeSuffix H cp else some "").map fun suffix =>
      let raw := raw ++ suffix
      let fold := cp.field "fold_archive"
      let raw := if appendsFold cp then
          raw ++ "|" ++ Tokens.join '|' [(fold.field "match_batch_seq").toText,
            (fold.field "match_count").toText, H.toLowerCase (fold.field "batch_crc32").toText,
            (fold.field "total_chunks").toText]
        else raw
      if isEquivHeaderActive (cp.field "snapshot_block") (cp.field "network") then
        buildEquivCanonical "XCHECKPOINT"
          ((cp.field "chain").toText ++ "|" ++ (cp.field "network").toText ++ "|" ++
            (cp.field "block_index").toText ++ "|" ++ (cp.field "checkpoint_seq").toText ++
            (if appendsFold cp then "|" ++ (fold.field "match_batch_seq").toText else ""))
          "0" raw
      else raw

/-- The commitment is active while a required field is absent; an empty root counts as absent. -/
def commitmentMissing : Bool :=
  cp.truthy && isCheckpointCommitmentActive (cp.field "snapshot_block") (cp.field "network") &&
    (!(cp.field "state_root").truthy || !(cp.field "block_merkle_root").truthy ||
      (cp.field "state_root_version").isNullish || (cp.field "block_merkle_version").isNullish)

/-- The commitment is active at the checkpoint's `snapshot_block`. -/
def commitmentActive : Bool :=
  cp.truthy && isCheckpointCommitmentActive (cp.field "snapshot_block") (cp.field "network")

/-- Supersession fields below their gate. -/
def supersessionDisallowed : Bool :=
  hasSupersedeFields cp &&
    !isCheckpointSupersedeActive (cp.field "snapshot_block") (cp.field "network")

section Congr

variable {H : Host} {cp cp' : Js} (ht : cp.truthy = cp'.truthy)
  (hf : ∀ k, k ≠ "validator_signatures" → cp.field k = cp'.field k)
include ht hf

omit ht in
theorem appendsRoots_congr : appendsRoots cp = appendsRoots cp' := by
  simp only [appendsRoots, hf "network" (by decide), hf "snapshot_block" (by decide),
    hf "state_root" (by decide), hf "state_root_version" (by decide),
    hf "block_merkle_root" (by decide), hf "block_merkle_version" (by decide)]

theorem hasSupersedeFields_congr : hasSupersedeFields cp = hasSupersedeFields cp' := by
  simp only [hasSupersedeFields, ht, hf "supersedes_from" (by decide),
    hf "rules_digest" (by decide)]

theorem supersedeSuffix_congr : supersedeSuffix H cp = supersedeSuffix H cp' := by
  rw [supersedeSuffix, supersedeSuffix, ht, hf "supersedes_from" (by decide),
    hf "rules_digest" (by decide)]

/-- The canonical string does not depend on the signatures. -/
theorem canonicalCheckpoint_congr : canonicalCheckpoint H cp = canonicalCheckpoint H cp' := by
  rw [canonicalCheckpoint, canonicalCheckpoint, appendsRoots_congr hf, appendsSupersession,
    appendsSupersession, hasSupersedeFields_congr ht hf, supersedeSuffix_congr ht hf, appendsFold,
    appendsFold, ht, hf "chain" (by decide), hf "network" (by decide),
    hf "block_index" (by decide), hf "block_hash" (by decide), hf "ledger_hash" (by decide),
    hf "actions_hash" (by decide), hf "contract_hash" (by decide),
    hf "checkpoint_seq" (by decide), hf "snapshot_block" (by decide), hf "state_root" (by decide),
    hf "state_root_version" (by decide), hf "block_merkle_root" (by decide),
    hf "block_merkle_version" (by decide), hf "fold_archive" (by decide)]

theorem commitmentMissing_congr : commitmentMissing cp = commitmentMissing cp' := by
  simp only [commitmentMissing, ht, hf "network" (by decide), hf "snapshot_block" (by decide),
    hf "state_root" (by decide), hf "state_root_version" (by decide),
    hf "block_merkle_root" (by decide), hf "block_merkle_version" (by decide)]

theorem supersessionDisallowed_congr :
    supersessionDisallowed cp = supersessionDisallowed cp' := by
  simp only [supersessionDisallowed, hasSupersedeFields_congr ht hf, hf "network" (by decide),
    hf "snapshot_block" (by decide)]

end Congr

/-! ### Tokens -/

/-- The tokens of the equivocation header, up to the empty one of its `||`. -/
def headerTokens : List String :=
  if isEquivHeaderActive (cp.field "snapshot_block") (cp.field "network") then
    ["EQUIV", "XCHECKPOINT", (cp.field "chain").toText, (cp.field "network").toText,
      (cp.field "block_index").toText, (cp.field "checkpoint_seq").toText] ++
    ((if appendsFold cp then [((cp.field "fold_archive").field "match_batch_seq").toText] else []) ++
      ["0", ""])
  else []

/-- The ten tokens that every checkpoint has. -/
def baseTokens : List String :=
  ["XCHECKPOINT", (cp.field "chain").elemText, (cp.field "network").elemText,
    (cp.field "block_index").toText, (cp.field "block_hash").elemText,
    (cp.field "ledger_hash").elemText, (cp.field "actions_hash").elemText,
    (cp.field "contract_hash").elemText, (cp.field "checkpoint_seq").toText,
    (cp.field "snapshot_block").toText]

/-- The tokens of the committed roots. -/
def rootTokens : List String :=
  if appendsRoots cp then
    [H.toLowerCase (cp.field "state_root").toText, (cp.field "state_root_version").toText,
      H.toLowerCase (cp.field "block_merkle_root").toText,
      (cp.field "block_merkle_version").toText]
  else []

/-- The tokens of the supersession suffix, given its height. -/
def supersedeTokens (n : ℕ) : List String :=
  if appendsSupersession cp then
    ["SUPERSEDE", numberToString (.fin n), H.toLowerCase (cp.field "rules_digest").toText]
  else []

/-- The tokens of the folded archive. -/
def foldTokens : List String :=
  let fold := cp.field "fold_archive"
  if appendsFold cp then
    [(fold.field "match_batch_seq").toText, (fold.field "match_count").toText,
      H.toLowerCase (fold.field "batch_crc32").toText, (fold.field "total_chunks").toText]
  else []

/-- All tokens of a canonical string. -/
def checkpointTokens (n : ℕ) : List String :=
  headerTokens cp ++ (baseTokens cp ++ rootTokens H cp ++ supersedeTokens H cp n ++ foldTokens H cp)

variable {H cp}

theorem supersedeSuffix_eq_some {s : String} (hs : hasSupersedeFields cp = true)
    (h : supersedeSuffix H cp = some s) :
    ∃ n d, (cp.field "supersedes_from").toNumber = .fin (n : ℕ) ∧ n < 2 ^ 53 ∧
      cp.field "rules_digest" = .str d ∧ isHexText 64 d = true ∧
      s = "|SUPERSEDE|" ++ numberToString (.fin n) ++ "|" ++ H.toLowerCase d := by
  simp only [hasSupersedeFields, Bool.and_eq_true] at hs
  simp only [supersedeSuffix, hs.1, Bool.true_and] at h
  split_ifs at h with h1 h2
  · simp_all
  · split at h
    · next n d hn hd =>
      split_ifs at h with hhex
      cases h
      exact ⟨n, d, (JsNum.safeNat?_eq_some hn).1, (JsNum.safeNat?_eq_some hn).2, hd, hhex, rfl⟩
    · cases h

theorem join_pipe_append {ts ts' : List String} (h : ts ≠ []) (h' : ts' ≠ []) :
    Tokens.join '|' (ts ++ ts') = Tokens.join '|' ts ++ "|" ++ Tokens.join '|' ts' :=
  Tokens.join_append h h'

/-- An optional suffix of tokens. -/
theorem join_pipe_append_if (ts ts' : List String) (h : ts ≠ []) (h' : ts' ≠ []) (b : Bool) :
    (if b then Tokens.join '|' ts ++ "|" ++ Tokens.join '|' ts' else Tokens.join '|' ts) =
      Tokens.join '|' (ts ++ if b then ts' else []) := by
  cases b
  · simp
  · exact (join_pipe_append h h').symm

theorem buildEquivCanonical_eq_join {T : List String} (hT : T ≠ []) :
    buildEquivCanonical "XCHECKPOINT"
      ((cp.field "chain").toText ++ "|" ++ (cp.field "network").toText ++ "|" ++
        (cp.field "block_index").toText ++ "|" ++ (cp.field "checkpoint_seq").toText ++
        (if appendsFold cp then "|" ++ ((cp.field "fold_archive").field "match_batch_seq").toText
          else ""))
      "0" (Tokens.join '|' T) =
    Tokens.join '|' (["EQUIV", "XCHECKPOINT", (cp.field "chain").toText,
      (cp.field "network").toText, (cp.field "block_index").toText,
      (cp.field "checkpoint_seq").toText] ++
      ((if appendsFold cp then [((cp.field "fold_archive").field "match_batch_seq").toText]
        else []) ++ ["0", ""]) ++ T) := by
  rw [Tokens.join_append (by simp) hT]
  cases appendsFold cp <;>
    simp [buildEquivCanonical, Tokens.join, ← String.toList_inj]

/-- The supersession suffix, as tokens after the tokens `ts`. -/
theorem append_supersedeSuffix (ts : List String) (hts : ts ≠ []) {suffix : String}
    (h : (if appendsSupersession cp then supersedeSuffix H cp else some "") = some suffix) :
    ∃ n, (appendsSupersession cp = true → n < 2 ^ 53 ∧
        (∃ d, cp.field "rules_digest" = .str d ∧ isHexText 64 d = true) ∧
        (cp.field "supersedes_from").toNumber = .fin (n : ℕ)) ∧
      Tokens.join '|' ts ++ suffix = Tokens.join '|' (ts ++ supersedeTokens H cp n) := by
  cases ha : appendsSupersession cp with
  | false =>
    have hsuffix : suffix = "" := by simpa [ha, eq_comm] using h
    exact ⟨0, by simp, by simp [supersedeTokens, ha, hsuffix]⟩
  | true =>
    rw [ha, if_pos rfl] at h
    have hhas : hasSupersedeFields cp = true := (Bool.and_eq_true_iff.1 ha).2
    obtain ⟨n, d, hn, hlt, hd, hhex, rfl⟩ := supersedeSuffix_eq_some hhas h
    refine ⟨n, fun _ => ⟨hlt, ⟨d, hd, hhex⟩, hn⟩, ?_⟩
    rw [supersedeTokens, ha, if_pos rfl, join_pipe_append hts (by simp), hd, toText_str]
    simp [Tokens.join, ← String.toList_inj]

/-- **Tokens.**  The canonical string is its tokens with `|` between them. -/
theorem canonicalCheckpoint_eq_join {s : String} (h : canonicalCheckpoint H cp = some s) :
    ∃ n, (appendsSupersession cp = true → n < 2 ^ 53 ∧
        (∃ d, cp.field "rules_digest" = .str d ∧ isHexText 64 d = true) ∧
        (cp.field "supersedes_from").toNumber = .fin (n : ℕ)) ∧
      s = Tokens.join '|' (checkpointTokens H cp n) := by
  have hbase : baseTokens cp ≠ [] := by simp [baseTokens]
  cases htruthy : cp.truthy with
  | false => simp [canonicalCheckpoint, htruthy] at h
  | true =>
    rw [canonicalCheckpoint, htruthy, if_neg (by simp), Option.map_eq_some_iff] at h
    obtain ⟨suffix, hsuffix, rfl⟩ := h
    have hroots := join_pipe_append_if (baseTokens cp)
      [H.toLowerCase (cp.field "state_root").toText, (cp.field "state_root_version").toText,
        H.toLowerCase (cp.field "block_merkle_root").toText,
        (cp.field "block_merkle_version").toText] hbase (by simp) (appendsRoots cp)
    obtain ⟨n, hn, hsup⟩ := append_supersedeSuffix (baseTokens cp ++ rootTokens H cp)
      (by simp [hbase]) hsuffix
    refine ⟨n, hn, ?_⟩
    have hfold := join_pipe_append_if
      (baseTokens cp ++ rootTokens H cp ++ supersedeTokens H cp n)
      [((cp.field "fold_archive").field "match_batch_seq").toText,
        ((cp.field "fold_archive").field "match_count").toText,
        H.toLowerCase ((cp.field "fold_archive").field "batch_crc32").toText,
        ((cp.field "fold_archive").field "total_chunks").toText]
      (by simp [hbase]) (by simp) (appendsFold cp)
    simp only [baseTokens, rootTokens, foldTokens, checkpointTokens] at *
    rw [hroots, hsup, hfold]
    cases hhead : isEquivHeaderActive (cp.field "snapshot_block") (cp.field "network") with
    | false => simp [headerTokens, hhead]
    | true =>
      rw [if_pos rfl, buildEquivCanonical_eq_join (by simp), headerTokens, hhead, if_pos rfl]

end XChainSdk
