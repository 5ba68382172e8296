import XChainSdk.Merkle.SampleHash

/-!
# Completeness and soundness of the sparse tree

* `sparseMerkleTree_proofs` : for every map, proofs of every key verify in both forms, an accepted
  leaf of 32 bytes is what the map holds, and the root does not depend on the history.
* `verifySmtProof_accepts_emptyLeaf` : spelled out, the empty leaf is accepted for an absent key,
  and so is a leaf that is not 32 bytes long and regroups with its sibling.
-/

namespace XChainSdk

open Hash Js HashTree

/-- All that computing the root of `t` hashes is in `S`, and every stored leaf is the leaf hash of
a byte string that `S` holds in the leaf domain. -/
structure SparseMerkleTree.CommittedIn (H : Host) (t : SparseMerkleTree) (S : Set Bytes) :
    Prop where
  hashed : ∀ x ∈ t.hashed H, x ∈ S
  leaves : ∀ e ∈ t.leaves, ∃ x, 0 :: x ∈ S ∧ e.2 = leafHash H x

theorem emptyLeafPreimage_mem_hashed (H : Host) (t : SparseMerkleTree) :
    emptyLeafPreimage ∈ t.hashed H :=
  List.mem_append_left _ (.head _)

/-- One of the two verifiers accepts, and `S` holds all that it hashes. -/
def AcceptedIn (H : Host) (S : Set Bytes) (rootHex : Js) (key : Digest) (leaf proof : Js) : Prop :=
  (verifySmtProof H rootHex key leaf proof = some true ∧
      verifySmtProofHashed H key leaf proof ⊆ S) ∨
    (verifyCompressedSmtProof H rootHex key leaf proof = some true ∧
      verifyCompressedSmtProofHashed H key leaf proof ⊆ S)

/-- An accepted leaf of 32 bytes is at the end of the key's path. -/
theorem leafBytes_of_acceptedIn {H : Host} {t : SparseMerkleTree} {S : Set Bytes}
    (hS : CollisionFree H.sha256 S) (ht : ∀ x ∈ t.hashed H, x ∈ S) {key : Digest} {leaf proof : Js}
    {b : Bytes} (hb : leafBytes H leaf = some b) (hlen : b.length = 32)
    (h : AcceptedIn H S (str (t.rootHex H)) key leaf proof) : b = (t.endLeaf H key).bytes := by
  rcases h with ⟨h, hin⟩ | ⟨h, hin⟩
  · exact SparseMerkleTree.leafBytes_of_verifySmtProof hS ht hin hb hlen h
  · obtain ⟨sibs, hsibs, h⟩ := verifyCompressedSmtProof_eq_true_iff.1 h
    exact SparseMerkleTree.leafBytes_of_verifySmtProof hS ht
      (fun x hx => hin ⟨sibs, hsibs, hx⟩) hb hlen h

/-- **Proofs against a sparse tree.**  Every key of every map has a proof that verifies in the
plain and in the wire form, with the stored leaf, or null where there is none.  When no two of the
hashed byte strings collide, a leaf that is null or 32 bytes long is accepted, in either form and
with any siblings, only if it is what the map holds: the empty leaf exactly at absent keys, else
the stored leaf.  Histories that end in the same map have the same root. -/
theorem sparseMerkleTree_proofs (H : Host) :
    (∀ (t : SparseMerkleTree) (key : Digest),
      (t.prove H key).leaf_value = leafText (t.get key) ∧
      verifySmtProof H (str (t.rootHex H)) key (t.prove H key).leaf_value
        (t.prove H key).siblings = some true ∧
      verifyCompressedSmtProof H (str (t.rootHex H)) key (t.prove H key).leaf_value
        (t.prove H key).compressed = some true) ∧
    (∀ (t : SparseMerkleTree) (S : Set Bytes), CollisionFree H.sha256 S → t.CommittedIn H S →
      ∀ (key : Digest) (leaf proof : Js), AcceptedIn H S (str (t.rootHex H)) key leaf proof →
        ∀ b, leafBytes H leaf = some b → b.length = 32 →
          (leaf.isNullish = true → t.get key = none) ∧
          (t.get key = none ↔ b = (EMPTY H 0).bytes) ∧
          ∀ v, t.get key = some v → b = v.bytes) ∧
    (∀ ops ops' : List (Digest × Option Digest),
      (∀ key, (SparseMerkleTree.ofHistory ops).get key =
        (SparseMerkleTree.ofHistory ops').get key) →
      (SparseMerkleTree.ofHistory ops).root H = (SparseMerkleTree.ofHistory ops').root H) := by
  refine ⟨fun t key => ⟨rfl, t.verifySmtProof_prove H key, (t.verifyCompressedSmtProof_prove H key).1⟩,
    fun t S hS ht key leaf proof haccept b hb hlen => ?_,
    fun ops ops' h => SparseMerkleTree.root_congr H _ h⟩
  have hend := leafBytes_of_acceptedIn hS ht.hashed hb hlen haccept
  have hpresent : ∀ v, t.get key = some v → b = v.bytes := fun v hv => by
    rw [hend, SparseMerkleTree.endLeaf, hv, Option.getD_some]
  have habsent : t.get key = none ↔ b = (EMPTY H 0).bytes := by
    constructor
    · intro hnone
      rw [hend, SparseMerkleTree.endLeaf, hnone, Option.getD_none]
    · intro hempty
      cases hget : t.get key with
      | none => rfl
      | some v =>
        refine absurd (Digest.ext ?_) (SparseMerkleTree.getD_ne_empty hS ht.leaves
          (ht.hashed _ (emptyLeafPreimage_mem_hashed H t)) hget)
        rw [← hpresent v hget, hempty]
  refine ⟨fun hnull => habsent.2 ?_, habsent, hpresent⟩
  rw [leafBytes, if_pos hnull] at hb
  exact (Option.some.inj hb).symm

/-! ### A tree of one leaf -/

/-- A leaf with the text `x` at a key. -/
def sampleLedger : Ledger where
  key _ := sampleDigest 7
  text _ := utf8 "x"
  top := []

/-- The tree of that leaf. -/
def sampleTree : SparseMerkleTree := ⟨[(sampleDigest 7, leafHash sampleHost (utf8 "x"))], by simp⟩

theorem leafHash_sampleHost_x : leafHash sampleHost (utf8 "x") = sampleDigest (1000 * 120) := by
  decide

theorem readsBack_sampleTree {x : Bytes}
    (hx : x ∈ sampleTree.hashed sampleHost ∨ x = 0 :: utf8 "x") : ReadsBack sampleLedger x := by
  have hsep := Ledger.separate_of_top_eq_nil (L := sampleLedger) rfl
  rcases hx with hx | rfl
  · rcases List.mem_append.1 hx with hx | hx
    · exact readsBack_emptyHashed (fun n _ => hsep n) hx
    · refine (samplePreimage_singleton (L := sampleLedger) (k := 120) (by decide) (by decide)
        le_rfl fun _ _ => hsep _).2 x ?_
      rw [← leafHash_sampleHost_x]
      exact hx
  · exact readsBack_leaf rfl (by decide) (by decide) (hsep _)

/-- `sparseMerkleTree_proofs` at this tree: its own proofs show that one key has a leaf and another
has none, and a history with a deletion has the same root. -/
theorem sparseMerkleTree_proofs_sampleTree :
    sampleTree.get (sampleDigest 7) ≠ none ∧ sampleTree.get (sampleDigest 8) = none ∧
      (SparseMerkleTree.ofHistory [(sampleDigest 8, some (sampleDigest 5000)),
          (sampleDigest 7, some (sampleDigest 120000)), (sampleDigest 8, none)]).root sampleHost =
        (SparseMerkleTree.ofHistory [(sampleDigest 7, some (sampleDigest 120000))]).root
          sampleHost := by
  have hS : CollisionFree sampleHost.sha256
      {x | x ∈ sampleTree.hashed sampleHost ∨ x = 0 :: utf8 "x"} :=
    collisionFree_of_readsBack sampleLedger fun x hx => readsBack_sampleTree hx
  have ht : sampleTree.CommittedIn sampleHost
      {x | x ∈ sampleTree.hashed sampleHost ∨ x = 0 :: utf8 "x"} :=
    ⟨fun x hx => .inl hx, fun e he => ⟨utf8 "x", .inr rfl, by rw [List.mem_singleton.1 he]⟩⟩
  have hproof : ∀ key, AcceptedIn sampleHost
      {x | x ∈ sampleTree.hashed sampleHost ∨ x = 0 :: utf8 "x"}
      (str (sampleTree.rootHex sampleHost)) key (leafText (sampleTree.get key))
      (sampleTree.prove sampleHost key).siblings := fun key =>
    .inl ⟨((sparseMerkleTree_proofs sampleHost).1 sampleTree key).2.1,
      (sampleTree.verifySmtProofHashed_prove sampleHost key).trans fun x hx => .inl hx⟩
  have hsound := fun key => (sparseMerkleTree_proofs sampleHost).2.1 sampleTree _ hS ht key _ _
    (hproof key) _ (leafBytes_leafText _ _) (by simp)
  refine ⟨fun hnone => ?_, (hsound (sampleDigest 8)).1 (by decide), ?_⟩
  · have hempty := (hsound (sampleDigest 7)).2.1.1 hnone
    rw [hnone] at hempty
    have hstored : sampleTree.get (sampleDigest 7) = some (leafHash sampleHost (utf8 "x")) := rfl
    simp [hnone] at hstored
  · refine (sparseMerkleTree_proofs sampleHost).2.2 _ _ fun key => ?_
    simp only [SparseMerkleTree.ofHistory, List.foldl_cons, List.foldl_nil,
      SparseMerkleTree.get_set]
    split_ifs with h8 h7
    · subst h8
      exact absurd h7 (by decide)
    all_goals rfl

/-- **Some leaves that the map does not hold are accepted**: in the empty tree, the empty leaf
spelled out as 32 bytes, and the one byte `00` with a deepest sibling of 63 bytes. -/
theorem verifySmtProof_accepts_emptyLeaf :
    ∃ S siblings, CollisionFree sampleHost.sha256 S ∧
      SparseMerkleTree.empty.CommittedIn sampleHost S ∧
      SparseMerkleTree.empty.get (sampleDigest 8) = none ∧
      AcceptedIn sampleHost S (str (SparseMerkleTree.empty.rootHex sampleHost)) (sampleDigest 8)
        (hexText (EMPTY sampleHost 0).bytes)
        (SparseMerkleTree.empty.prove sampleHost (sampleDigest 8)).siblings ∧
      AcceptedIn sampleHost S (str (SparseMerkleTree.empty.rootHex sampleHost)) (sampleDigest 8)
        (str "00") siblings := by
  have hget : SparseMerkleTree.empty.get (sampleDigest 8) = none := rfl
  have hsep := Ledger.separate_of_top_eq_nil (L := sampleLedger) rfl
  have hS : CollisionFree sampleHost.sha256 {x | x ∈ SparseMerkleTree.empty.hashed sampleHost} :=
    collisionFree_of_readsBack sampleLedger fun x hx => by
      rcases List.mem_append.1 hx with hx | hx
      · exact readsBack_emptyHashed (fun n _ => hsep n) hx
      · cases hx
  have hspelled : leafBytes sampleHost (hexText (EMPTY sampleHost 0).bytes) =
      leafBytes sampleHost null := toBuf_hexText _
  obtain ⟨hverify, hhashed⟩ := verifySmtProof_congr hspelled
    (str (SparseMerkleTree.empty.rootHex sampleHost))
    (SparseMerkleTree.empty.prove sampleHost (sampleDigest 8)).siblings (sampleDigest 8)
  have hbyte : leafBytes sampleHost (str "00") =
      some [outerByte (keyBit (sampleDigest 8) 255) (EMPTY sampleHost 0)] := by
    rw [EMPTY_sampleHost (by decide)]
    decide
  obtain ⟨sibs, -, hshort⟩ :=
    SparseMerkleTree.empty.exists_verifySmtProof_outerByte sampleHost (sampleDigest 8) hbyte
  refine ⟨_, _, hS, ⟨fun x hx => hx, fun e he => (by cases he)⟩, hget, .inl ⟨?_, ?_⟩, .inl hshort⟩
  · rw [hverify]
    exact SparseMerkleTree.empty.verifySmtProof_prove sampleHost (sampleDigest 8)
  · rw [hhashed]
    exact SparseMerkleTree.empty.verifySmtProofHashed_prove sampleHost (sampleDigest 8)

end XChainSdk
