import XChainSdk.Merkle.Smt
import Mathlib.Data.List.GetD

/-!
# The sparse tree as a full tree

`smtNode` computes the root of the full tree that has the stored leaf at the end of every key's
path and the empty leaf elsewhere; the verifier's loop is a climb in that tree.

* `keyBits_injective` : a key is determined by its 256 bits.
* `SparseMerkleTree.root_tree`, `SparseMerkleTree.follow_keyBits`,
  `SparseMerkleTree.preimages_tree`.
* `smtFold_eq_climb` : the loop of `verifySmtProof`.
* `SparseMerkleTree.root_congr` : the root is a function of the map.
-/

namespace XChainSdk

open Hash Js HashTree

/-- The path of a key. -/
abbrev keyBits (key : Digest) : List Bool := keyPath keyBit key 0 SMT_DEPTH

theorem keyBits_injective : Function.Injective keyBits := fun a b h => by
  have hbit : ∀ i < 256, keyBit a i = keyBit b i := fun i hi => by
    have hget := congrArg (fun l => l[i]?) h
    simpa [keyBits, keyPath, SMT_DEPTH, hi] using hget
  refine Digest.ext (List.ext_getElem (by simp) fun j hj hj' => UInt8.toNat_inj.1 ?_)
  have hj32 : j < 32 := by simpa using hj
  refine Nat.eq_of_testBit_eq fun n => ?_
  by_cases hn : n < 8
  · have h := hbit (8 * j + (7 - n)) (by omega)
    have h1 : (8 * j + (7 - n)) / 8 = j := by omega
    have h2 : 7 - (8 * j + (7 - n)) % 8 = n := by omega
    simpa only [keyBit, bitAt, h1, h2, List.getD_eq_getElem _ _ hj,
      List.getD_eq_getElem _ _ hj'] using h
  · have hlt : ∀ b : UInt8, b.toNat.testBit n = false := fun b =>
      Nat.testBit_lt_two_pow (Nat.lt_of_lt_of_le b.toNat_lt (Nat.pow_le_pow_right (by decide)
        (Nat.le_of_not_lt hn)))
    rw [hlt, hlt]

section

variable (H : Host)

/-- The full tree of the entries at a height. -/
def entriesTree (height : ℕ) (entries : List Entry) : DigestTree :=
  ofFn height (sparseLeaf keyBit (EMPTY H 0) (SMT_DEPTH - height) height entries)

theorem entriesTree_zero (entries : List Entry) : entriesTree H 0 entries =
    DigestTree.leaf (sparseLeaf keyBit (EMPTY H 0) SMT_DEPTH 0 entries []) := rfl

theorem entriesTree_succ {height : ℕ} (hh : height < SMT_DEPTH) (entries : List Entry) :
    entriesTree H (height + 1) entries =
      DigestTree.node (entriesTree H height (side keyBit (SMT_DEPTH - (height + 1)) false entries))
        (entriesTree H height (side keyBit (SMT_DEPTH - (height + 1)) true entries)) := by
  have hdepth : SMT_DEPTH - (height + 1) + 1 = SMT_DEPTH - height := by omega
  simp only [entriesTree, ofFn_sparseLeaf_succ, hdepth]

theorem entriesTree_nil_succ (height : ℕ) : entriesTree H (height + 1) [] =
    DigestTree.node (entriesTree H height []) (entriesTree H height []) := rfl

theorem root_entriesTree_nil (height : ℕ) :
    (entriesTree H height []).root H.sha256 1 = EMPTY H height := by
  induction height with
  | zero => rfl
  | succ height ih =>
    rw [entriesTree_nil_succ, DigestTree.root, ih]
    rfl

theorem root_entriesTree {height : ℕ} (hh : height ≤ SMT_DEPTH) (entries : List Entry) :
    (entriesTree H height entries).root H.sha256 1 = smtNode H height entries := by
  induction height generalizing entries with
  | zero =>
    cases entries with
    | nil => rfl
    | cons e es => simp [entriesTree_zero, DigestTree.root, smtNode, sparseLeaf, keyPath]
  | succ height ih =>
    cases entries with
    | nil => exact root_entriesTree_nil H (height + 1)
    | cons e es =>
      rw [entriesTree_succ H hh, DigestTree.root, ih (by omega), ih (by omega)]
      rfl

theorem preimages_entriesTree_nil {height : ℕ} (hh : height ≤ SMT_DEPTH) :
    (entriesTree H height []).preimages H.sha256 1 ⊆ {x | x ∈ emptyHashed H SMT_DEPTH} := by
  induction height with
  | zero => exact Set.empty_subset _
  | succ height ih =>
    rw [entriesTree_nil_succ, DigestTree.preimages, root_entriesTree_nil]
    refine Set.insert_subset (List.mem_cons_of_mem _ (List.mem_map.2 ⟨height, ?_, rfl⟩))
      (Set.union_subset (ih (by omega)) (ih (by omega)))
    exact List.mem_range.2 hh

/-- The code hashes every node of the tree, or reads its digest in the table. -/
theorem preimages_entriesTree {height : ℕ} (hh : height ≤ SMT_DEPTH) (entries : List Entry) :
    (entriesTree H height entries).preimages H.sha256 1 ⊆
      {x | x ∈ emptyHashed H SMT_DEPTH ++ smtNodeHashed H height entries} := by
  have hleft : ∀ l, {x | x ∈ emptyHashed H SMT_DEPTH} ⊆ {x | x ∈ emptyHashed H SMT_DEPTH ++ l} :=
    fun l x hx => List.mem_append_left _ hx
  induction height generalizing entries with
  | zero => exact Set.empty_subset _
  | succ height ih =>
    cases entries with
    | nil => exact (preimages_entriesTree_nil H hh).trans (hleft _)
    | cons e es =>
      rw [entriesTree_succ H hh, DigestTree.preimages, root_entriesTree H (by omega),
        root_entriesTree H (by omega)]
      refine Set.insert_subset (List.mem_append_right _ (.head _)) (Set.union_subset ?_ ?_)
      · refine (ih (by omega) _).trans fun x hx => ?_
        rcases List.mem_append.1 hx with hx | hx
        · exact List.mem_append_left _ hx
        · exact List.mem_append_right _ (.tail _ (List.mem_append_left _ hx))
      · refine (ih (by omega) _).trans fun x hx => ?_
        rcases List.mem_append.1 hx with hx | hx
        · exact List.mem_append_left _ hx
        · exact List.mem_append_right _ (.tail _ (List.mem_append_right _ hx))

theorem siblings_entriesTree (key : Digest) {height : ℕ} (hh : height ≤ SMT_DEPTH)
    (entries : List Entry) :
    (entriesTree H height entries).siblings H.sha256 1
        (keyPath keyBit key (SMT_DEPTH - height) height) =
      proveSiblings H key height entries := by
  induction height generalizing entries with
  | zero => rfl
  | succ height ih =>
    have hdepth : SMT_DEPTH - (height + 1) + 1 = SMT_DEPTH - height := by omega
    rw [keyPath_succ, hdepth, entriesTree_succ H hh, DigestTree.siblings, proveSiblings]
    cases hbit : keyBit key (SMT_DEPTH - (height + 1)) with
    | false =>
      rw [← root_entriesTree H (by omega), ← ih (by omega)]
      rfl
    | true =>
      rw [← root_entriesTree H (by omega), ← ih (by omega)]
      rfl

/-- The loop of `verifySmtProof` climbs along the bits of the key. -/
theorem smtFold_eq_climb (key : Digest) (leaf : Bytes) {siblings : List Bytes}
    (hlen : siblings.length = SMT_DEPTH) :
    smtFold H key.bytes leaf siblings = climb H.sha256 1 leaf ((keyBits key).zip siblings) := by
  have hgen : ∀ (sibs : List Bytes) (d : ℕ),
      (sibs.zipIdx d).foldr (fun (x : Bytes × ℕ) node =>
        if bitAt key.bytes x.2 then (nodeHash H x.1 node).bytes
        else (nodeHash H node x.1).bytes) leaf =
      climb H.sha256 1 leaf ((keyPath keyBit key d sibs.length).zip sibs) := by
    intro sibs
    induction sibs with
    | nil => intro d; rfl
    | cons s sibs ih =>
      intro d
      rw [List.zipIdx_cons, List.foldr_cons, ih, List.length_cons, keyPath_succ,
        List.zip_cons_cons, climb]
      cases hbit : keyBit key d with
      | false => rw [keyBit] at hbit; simp [hbit, nodeHash, pair]
      | true => rw [keyBit] at hbit; simp [hbit, nodeHash, pair]
  rw [smtFold, hgen siblings 0, hlen]

end

namespace SparseMerkleTree

variable (H : Host) (t : SparseMerkleTree)

/-- The full tree of all `2 ^ 256` keys. -/
def tree : DigestTree := entriesTree H SMT_DEPTH t.leaves

/-- The byte strings that computing the root hashes. -/
def hashed : List Bytes := emptyHashed H SMT_DEPTH ++ smtNodeHashed H SMT_DEPTH t.leaves

theorem root_tree : (t.tree H).root H.sha256 1 = t.root H := root_entriesTree H le_rfl _

theorem preimages_tree : (t.tree H).preimages H.sha256 1 ⊆ {x | x ∈ t.hashed H} :=
  preimages_entriesTree H le_rfl _

theorem follow_keyBits (key : Digest) :
    (t.tree H).follow (keyBits key) = some (DigestTree.leaf ((t.get key).getD (EMPTY H 0))) := by
  rw [tree, entriesTree, follow_ofFn _ (by simp), Nat.sub_self,
    sparseLeaf_keyPath keyBit _ keyBits_injective]
  rfl

theorem length_of_follow {ds : List Bool} {v : Digest}
    (h : (t.tree H).follow ds = some (DigestTree.leaf v)) : ds.length = SMT_DEPTH :=
  length_of_follow_ofFn h

theorem leavesFrom_tree {P : Set Bytes} (hempty : emptyLeafPreimage ∈ P)
    (hleaf : ∀ e ∈ t.leaves, ∃ x ∈ P, e.2 = H.sha256 x) :
    (t.tree H).LeavesFrom H.sha256 P :=
  leavesFrom_ofFn fun ds => by
    rcases sparseLeaf_mem keyBit (EMPTY H 0) t.leaves ds with h | ⟨e, he, h⟩
    · exact ⟨_, hempty, h⟩
    · obtain ⟨x, hx, hex⟩ := hleaf e he
      exact ⟨x, hx, h.trans hex⟩

theorem siblings_tree (key : Digest) :
    (t.tree H).siblings H.sha256 1 (keyBits key) = proveSiblings H key SMT_DEPTH t.leaves :=
  siblings_entriesTree H key le_rfl _

/-- **The root is a function of the map**: it does not depend on the order or the history of the
entries. -/
theorem root_congr {t' : SparseMerkleTree} (h : ∀ key, t.get key = t'.get key) :
    t.root H = t'.root H := by
  rw [← root_tree, ← root_tree, tree, tree, entriesTree, entriesTree, Nat.sub_self,
    sparseLeaf_congr keyBit _ keyBits_injective h]

end SparseMerkleTree

end XChainSdk
