import XChainSdk.LightClient.LeafText

/-!
# Leaves bound to a state root

A served leaf is bound to the trusted state root in two stages: a sparse proof to a served
sub-root, and a fixed proof from there to the state root.  Together they are one climb in the tree
of the whole state.

* `exists_path_of_bound` : the climb behind an accepted pair of proofs.
* `bound_leaf` : **the leaf is the committed one**, unless it was claimed as a one-element array
  and a byte at the outer end of some node on the key's path is the byte of that array.
* `subRootBinds_topSiblings` : every sub-root can be bound.
* `exists_forged_proof` : in that case every text goes through.
-/

namespace XChainSdk

open Hash Js HashTree

/-- The byte strings that binding a sub-root hashes. -/
def subRootHashed (H : Host) (subRoot path : Js) : Set Bytes :=
  {x | ∃ (n : ℕ) (b : Bytes) (sibs : List Js) (bufs : List Bytes),
    path.field "index" = num (.fin (n : ℚ)) ∧ subRoot.toBuf = some b ∧
    (path.field "siblings").iter = some sibs ∧ sibs.mapM Js.toBuf = some bufs ∧
    x ∈ climbPreimages H.sha256 1 b (fixedPath n bufs)}

/-- The byte strings that binding a leaf hashes. -/
def boundHashed (H : Host) (key : Digest) (leaf compressed subRoot path : Js) : Set Bytes :=
  verifyCompressedSmtProofHashed H key leaf compressed ∪ subRootHashed H subRoot path

theorem otherSlot_eq_false_iff {index : Js} {name : String} :
    otherSlot index name = false ↔ index = num (.fin (STATE_SUBTREES.idxOf name : ℚ)) := by
  unfold otherSlot
  split
  · simp
  · next h =>
    simp only [Bool.true_eq_false, false_iff]
    rintro rfl
    exact h _ rfl

/-- The key's path below slot `slot` of the state reaches a digest whose byte at the outer end of
its node is `β`, with some number of steps above the key's bits. -/
def LeafState.ReachesByte (H : Host) (σ : LeafState) (slot : ℕ) (key : Digest) (β : UInt8) : Prop :=
  ∃ k U, (σ.tree H).follow (slotDirs slot k ++ keyBits key) = some U ∧
    outerByte (keyBit key 255) (U.root H.sha256 1) = β

theorem outerByte_of_pair {tag β : UInt8} {right : Bool} {v : Digest} {s t : Bytes}
    (h : pair tag right [β] s = pair tag right v.bytes t) : outerByte right v = β := by
  have hne : v.bytes ≠ [] := fun hnil => by simpa [hnil] using v.length_eq
  have h := (List.cons.inj h).2
  cases right with
  | false =>
    obtain ⟨x, xs, hx⟩ := List.exists_cons_of_ne_nil hne
    simp only [Bool.false_eq_true, if_false, hx, List.cons_append, List.cons.injEq] at h
    simp [outerByte, hx, h.1]
  | true =>
    simp only [if_true] at h
    have hlast := congrArg List.getLast? h
    rw [List.getLast?_append_of_ne_nil _ (by simp), List.getLast?_append_of_ne_nil _ hne] at hlast
    simp [outerByte, List.getLastD_eq_getLast?, ← hlast]

section

variable {H : Host} {σ : LeafState} (slot : ℕ) (name : String) {key : Digest}

/-- An accepted pair of proofs is one climb to the state root. -/
theorem exists_path_of_bound {leaf compressed subRoot path : Js} {root b : Bytes}
    (hslot : STATE_SUBTREES.idxOf name = slot)
    (hproof : verifyCompressedSmtProof H subRoot key leaf compressed = some true)
    (hindex : otherSlot (path.field "index") name = false)
    (hbind : subRootBinds H (hexText root) subRoot path = some true)
    (hb : leafBytes H leaf = some b) :
    ∃ k p, p.map Prod.fst = slotDirs slot k ++ keyBits key ∧ climb H.sha256 1 b p = root ∧
      climbPreimages H.sha256 1 b p ⊆ boundHashed H key leaf compressed subRoot path := by
  subst hslot
  have hlt : STATE_SUBTREES.idxOf name < 2 ^ 31 :=
    Nat.lt_of_le_of_lt List.idxOf_le_length (by decide)
  have hindex := otherSlot_eq_false_iff.1 hindex
  obtain ⟨sibs, hsibs, hproof⟩ := verifyCompressedSmtProof_eq_true_iff.1 hproof
  obtain ⟨sibs', b', bufs, hsibs', hb', hbufs, hlen, rfl⟩ := verifySmtProof_eq_true_iff.1 hproof
  cases hsibs'
  cases hb.symm.trans hb'
  rw [subRootBinds, toBuf_hexText, Option.bind_eq_bind, Option.bind_some, hindex,
    verifyFixedMerkleProof_eq_true_iff hlt] at hbind
  obtain ⟨fsibs, fbufs, hfsibs, hfbufs, hroot⟩ := hbind
  refine ⟨fbufs.length, fixedPath (STATE_SUBTREES.idxOf name) fbufs ++ (keyBits key).zip bufs,
    ?_, ?_, ?_⟩
  · rw [List.map_append, map_fst_fixedPath, map_fst_keyBits_zip key hlen]
  · rw [climb_append]
    exact (toHex_injective (Js.str.inj hroot)).symm
  · rw [climbPreimages_append]
    refine Set.union_subset (fun x hx => .inr ?_) fun x hx => .inl ?_
    · exact ⟨_, _, fsibs, fbufs, hindex, toBuf_hexText _, hfsibs, hfbufs, hx⟩
    · exact ⟨sibs, hsibs, sibs, b, bufs, rfl, hb, hbufs, hx⟩

/-- **A bound leaf is the committed one.**  The claim is null for the empty leaf, else its text is
that of the leaf hash of `y`. -/
theorem bound_leaf {S : Set Bytes} (hS : CollisionFree H.sha256 S)
    (hσ : ∀ x ∈ σ.hashed H, x ∈ S) (hname : STATE_SUBTREES[slot]? = some name)
    (hslot : STATE_SUBTREES.idxOf name = slot) {leaf compressed subRoot path : Js} {y : Bytes}
    (hin : boundHashed H key leaf compressed subRoot path ⊆ S) (hy : y ∈ leafDomain ∩ S)
    (hclaim : leaf.isNullish = true ∧ y = emptyLeafPreimage ∨
      leaf.isNullish = false ∧ lowerHex H leaf = toHex (H.sha256 y).bytes)
    (hproof : verifyCompressedSmtProof H subRoot key leaf compressed = some true)
    (hindex : otherSlot (path.field "index") name = false)
    (hbind : subRootBinds H (hexText (σ.root H)) subRoot path = some true) :
    y = (σ name).endPreimage key ∨
      ∃ x β, leaf = arr [x] ∧ toUint8 x = some β ∧ σ.ReachesByte H slot key β := by
  obtain ⟨b, hb⟩ : ∃ b, leafBytes H leaf = some b := by
    obtain ⟨sibs, -, hproof⟩ := verifyCompressedSmtProof_eq_true_iff.1 hproof
    obtain ⟨-, b, -, -, hb, -⟩ := verifySmtProof_eq_true_iff.1 hproof
    exact ⟨b, hb⟩
  obtain ⟨k, p, hdirs, hclimb, hpre⟩ := exists_path_of_bound slot name hslot hproof hindex hbind hb
  have hpreS := hpre.trans hin
  clear hpre
  have htree : (σ.tree H).preimages H.sha256 1 ⊆ S := (σ.preimages_tree H).trans hσ
  have hleaves : (σ.tree H).LeavesFrom H.sha256 (leafDomain ∩ S) :=
    DigestTree.LeavesFrom.mono (σ.leavesFrom_tree H) fun x hx => ⟨hx.1, hσ x hx.2⟩
  rw [← LeafState.root_tree] at hclimb
  have hend : (σ name).endPreimage key ∈ S :=
    hσ _ (List.mem_append_left _ (List.mem_flatMap.2
      ⟨name, List.mem_of_getElem? hname, LeafMap.endPreimage_mem_hashed H _ key⟩))
  have hdigest : ∀ {b : Bytes}, b = (H.sha256 y).bytes →
      climbPreimages H.sha256 1 b p ⊆ S → climb H.sha256 1 b p =
        ((σ.tree H).root H.sha256 1).bytes → y = (σ name).endPreimage key := by
    rintro b rfl hpre hclimb
    have hfollow := follow_eq_leaf hS htree Set.inter_subset_right (fun x hx => hx.1) hleaves hy
      hpre hclimb
    rw [hdirs] at hfollow
    exact hS hy.2 hend (LeafState.follow_slot_leaf H σ hname hfollow)
  rcases hclaim with ⟨hnull, rfl⟩ | ⟨hnull, htext⟩
  · rw [leafBytes, if_pos hnull] at hb
    exact .inl (hdigest (Option.some.inj hb).symm hpreS hclimb)
  · rw [leafBytes, if_neg (by simp [hnull])] at hb
    rcases toBuf_of_lowerHex_eq htext hb with rfl | ⟨x, β, rfl, hβ, rfl⟩
    · exact .inl (hdigest rfl hpreS hclimb)
    · -- the byte stands where the first or last byte of a child of some node is
      right
      refine ⟨x, β, rfl, hβ, k, ?_⟩
      rw [keyBits_eq_append, ← List.append_assoc] at hdirs
      obtain ⟨p, q, rfl, hp, hq⟩ := List.map_eq_append_iff.1 hdirs
      obtain ⟨⟨d, s⟩, q, rfl, hd, hq⟩ := List.map_eq_cons_iff.1 hq
      cases List.map_eq_nil_iff.1 hq
      cases hd
      obtain ⟨l, r, hnode, hpair⟩ := node_of_climb_eq_root hS htree Set.inter_subset_right
        (fun x hx => hx.1) hleaves hpreS hclimb
      refine ⟨DigestTree.child l r (keyBit key 255), ?_, ?_⟩
      · rw [keyBits_eq_append, ← List.append_assoc, ← hp, DigestTree.follow_append hnode]
        simp
      · rw [← pair_child l r (keyBit key 255)] at hpair
        exact outerByte_of_pair hpair

/-- A served path: the index of a slot and the siblings from the slot up. -/
def servedPath (slot : ℕ) (sibs : List Bytes) : Js :=
  obj [("index", num (.fin (slot : ℚ))), ("siblings", arr (sibs.map hexText))]

theorem truthy_servedPath (slot : ℕ) (sibs : List Bytes) : (servedPath slot sibs).truthy = true :=
  rfl

omit key in
/-- Siblings that climb from the bytes of a leaf to the root of the state can be served as a pair of
proofs. -/
theorem exists_bound_of_climb (hslot : STATE_SUBTREES.idxOf name = slot) (key : Digest) {leaf : Js}
    {b root : Bytes} (hb : leafBytes H leaf = some b) {k : ℕ} {sibs : List Bytes}
    (hlen : sibs.length = k + SMT_DEPTH)
    (hclimb : climb H.sha256 1 b ((slotDirs slot k ++ keyBits key).zip sibs) = root) :
    ∃ subRoot top compressed,
      verifyCompressedSmtProof H (hexText subRoot) key leaf compressed = some true ∧
      otherSlot ((servedPath slot top).field "index") name = false ∧
      subRootBinds H (hexText root) (hexText subRoot) (servedPath slot top) = some true ∧
      boundHashed H key leaf compressed (hexText subRoot) (servedPath slot top) ⊆
        climbPreimages H.sha256 1 b ((slotDirs slot k ++ keyBits key).zip sibs) := by
  obtain ⟨top, low, rfl, htop, hlow⟩ : ∃ top low : List Bytes,
      sibs = top ++ low ∧ top.length = k ∧ low.length = SMT_DEPTH := by
    refine ⟨_, _, (List.take_append_drop k sibs).symm, ?_, ?_⟩ <;> simp [hlen]
  have hpath : (slotDirs slot k ++ keyBits key).zip (top ++ low) =
      fixedPath slot top.reverse ++ (keyBits key).zip low := by
    rw [fixedPath_reverse, htop, List.zip_append (by rw [length_slotDirs, htop])]
  rw [hpath, climb_append] at hclimb
  rw [hpath, climbPreimages_append]
  have hcompressed := decompressSmtProof_compressSmtProof H hlow
  have hslotlt : slot < 2 ^ 31 := by
    rw [← hslot]
    exact Nat.lt_of_le_of_lt List.idxOf_le_length (by decide)
  refine ⟨climb H.sha256 1 b ((keyBits key).zip low), top.reverse, compressSmtProof H low,
    ?_, ?_, ?_, ?_⟩
  · exact verifyCompressedSmtProof_eq_true_iff.2 ⟨_, hcompressed,
      verifySmtProof_eq_true_iff.2 ⟨_, b, _, rfl, hb, mapM_toBuf_hexText _, hlow, rfl⟩⟩
  · rw [otherSlot_eq_false_iff, hslot]
    rfl
  · rw [subRootBinds, toBuf_hexText, Option.bind_eq_bind, Option.bind_some]
    refine (verifyFixedMerkleProof_eq_true_iff hslotlt).2
      ⟨_, top.reverse, rfl, mapM_toBuf_hexText _, ?_⟩
    rw [hclimb]
  · refine Set.union_subset ?_ ?_
    · rintro y ⟨sibs, hdecompress, sibs', b', bufs, hsibs', hb', hbufs, hy⟩
      cases hcompressed.symm.trans hdecompress
      cases hsibs'
      cases hb.symm.trans hb'
      cases (mapM_toBuf_hexText _).symm.trans hbufs
      exact .inr hy
    · rintro y ⟨n, b', sibs, bufs, hn, hb', hiter, hbufs, hy⟩
      have hn : slot = n := by
        have : num (.fin (slot : ℚ)) = num (.fin (n : ℚ)) := hn
        simpa using this
      subst hn
      cases (toBuf_hexText _).symm.trans hb'
      cases hiter
      cases (mapM_toBuf_hexText _).symm.trans hbufs
      exact .inl hy

/-- The roots next to the path of a slot, from the slot up. -/
def LeafState.topSiblings (H : Host) (σ : LeafState) (slot : ℕ) : List Bytes :=
  (((σ.tree H).siblings H.sha256 1 (slotDirs slot 3)).map Digest.bytes).reverse

omit key in
/-- **A sub-root is bound** by the roots next to its slot, and binding it hashes nothing that the
state did not. -/
theorem subRootBinds_topSiblings (hname : STATE_SUBTREES[slot]? = some name)
    (hslot : STATE_SUBTREES.idxOf name = slot) :
    otherSlot ((servedPath slot (σ.topSiblings H slot)).field "index") name = false ∧
      subRootBinds H (hexText (σ.root H)) (str (((σ name).tree H).rootHex H))
        (servedPath slot (σ.topSiblings H slot)) = some true ∧
      subRootHashed H (str (((σ name).tree H).rootHex H))
        (servedPath slot (σ.topSiblings H slot)) ⊆ {x | x ∈ σ.hashed H} := by
  have hlt : slot < 8 :=
    (List.getElem?_eq_some_iff.1 hname).1.trans_le (show STATE_SUBTREES.length ≤ 8 by decide)
  have hfollow := LeafState.follow_slotDirs H σ hlt
  have hlen : ((σ.tree H).siblings H.sha256 1 (slotDirs slot 3)).length = 3 := by
    rw [length_siblings hfollow, length_slotDirs]
  have hpath : fixedPath slot (σ.topSiblings H slot) =
      (slotDirs slot 3).zip (((σ.tree H).siblings H.sha256 1 (slotDirs slot 3)).map
        Digest.bytes) := by
    rw [LeafState.topSiblings, fixedPath_reverse, List.length_map, hlen]
  have hclimb : climb H.sha256 1 (((σ name).tree H).root H).bytes
      (fixedPath slot (σ.topSiblings H slot)) = σ.root H := by
    rw [hpath, ← LeafState.root_slotTree H σ slot hname, climb_siblings hfollow,
      LeafState.root_tree]
  have hpre : climbPreimages H.sha256 1 (((σ name).tree H).root H).bytes
      (fixedPath slot (σ.topSiblings H slot)) ⊆ (σ.tree H).preimages H.sha256 1 := by
    rw [hpath, ← LeafState.root_slotTree H σ slot hname]
    exact climbPreimages_siblings_subset hfollow
  refine ⟨?_, ?_, ?_⟩
  · rw [otherSlot_eq_false_iff, hslot]
    rfl
  · rw [subRootBinds, SparseMerkleTree.rootHex, ← hexText, toBuf_hexText, Option.bind_eq_bind,
      Option.bind_some]
    exact (verifyFixedMerkleProof_eq_true_iff (by omega)).2
      ⟨_, σ.topSiblings H slot, rfl, mapM_toBuf_hexText _, by rw [hclimb]⟩
  · rintro y ⟨n, b, sibs, bufs, hn, hb, hiter, hbufs, hy⟩
    have hn : slot = n := by
      have : num (.fin (slot : ℚ)) = num (.fin (n : ℚ)) := hn
      simpa using this
    subst hn
    cases (toBuf_hexText _).symm.trans hb
    cases hiter
    cases (mapM_toBuf_hexText _).symm.trans hbufs
    exact σ.preimages_tree H (hpre hy)

/-- **The one-element array goes through** wherever its byte is reached: proofs that bind it exist,
whatever text the array has, and they hash nothing that the state did not. -/
theorem exists_forged_proof (hslot : STATE_SUBTREES.idxOf name = slot) {x : Js} {β : UInt8}
    (hβ : toUint8 x = some β) (hreach : σ.ReachesByte H slot key β) :
    ∃ subRoot top compressed,
      verifyCompressedSmtProof H (hexText subRoot) key (arr [x]) compressed = some true ∧
      otherSlot ((servedPath slot top).field "index") name = false ∧
      subRootBinds H (hexText (σ.root H)) (hexText subRoot) (servedPath slot top) = some true ∧
      boundHashed H key (arr [x]) compressed (hexText subRoot) (servedPath slot top) ⊆
        {x | x ∈ σ.hashed H} := by
  obtain ⟨k, U, hU, rfl⟩ := hreach
  rw [keyBits_eq_append, ← List.append_assoc] at hU
  obtain ⟨l, r, hnode, rfl⟩ := DigestTree.exists_node_of_follow_concat hU
  -- the siblings on the way, and the rest of the node at the end
  have hpair := pair_outerByte 1 (keyBit key 255)
    ((DigestTree.child l r (keyBit key 255)).root H.sha256 1)
    ((DigestTree.child l r !keyBit key 255).root H.sha256 1).bytes
  rw [pair_child] at hpair
  obtain ⟨hclimb, hpre⟩ := climb_regrouped hnode hpair
  generalize outerByte (keyBit key 255)
    ((DigestTree.child l r (keyBit key 255)).root H.sha256 1) = β at hβ hclimb hpre
  generalize restOfNode (keyBit key 255) ((DigestTree.child l r (keyBit key 255)).root H.sha256 1)
    ((DigestTree.child l r !keyBit key 255).root H.sha256 1).bytes = s at hclimb hpre
  have hleaf : leafBytes H (arr [x]) = some [β] := by
    simp [leafBytes, Js.isNullish, Js.toBuf, hβ]
  have hlen : (((σ.tree H).siblings H.sha256 1 (slotDirs slot k ++ keyPath keyBit key 0 255)).map
      Digest.bytes).length = (slotDirs slot k ++ keyPath keyBit key 0 255).length := by
    rw [List.length_map, length_siblings hnode]
  have hpath : (slotDirs slot k ++ keyPath keyBit key 0 255).zip
        (((σ.tree H).siblings H.sha256 1 (slotDirs slot k ++ keyPath keyBit key 0 255)).map
          Digest.bytes) ++ [(keyBit key 255, s)] =
      (slotDirs slot k ++ keyBits key).zip
        (((σ.tree H).siblings H.sha256 1 (slotDirs slot k ++ keyPath keyBit key 0 255)).map
          Digest.bytes ++ [s]) := by
    rw [keyBits_eq_append, ← List.append_assoc, List.zip_append hlen.symm]
    rfl
  rw [hpath] at hclimb hpre
  rw [LeafState.root_tree] at hclimb
  obtain ⟨subRoot, top, compressed, hproof, hindex, hbind, hhashed⟩ :=
    exists_bound_of_climb slot name hslot key hleaf (k := k)
      (by rw [List.length_append, hlen]; simp [SMT_DEPTH, Nat.add_assoc]) hclimb
  exact ⟨subRoot, top, compressed, hproof, hindex, hbind,
    hhashed.trans (hpre.trans (σ.preimages_tree H))⟩

end

end XChainSdk
