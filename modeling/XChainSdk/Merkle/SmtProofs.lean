import XChainSdk.Merkle.SmtTree

/-!
# Proofs against a sparse tree

* `decompressSmtProof_compressSmtProof` : the wire form carries every list of 256 siblings.
* `verifySmtProof_prove`, `verifyCompressedSmtProof_prove` : **completeness**.
* `leafBytes_of_verifySmtProof` : **soundness**: accepted 32-byte leaves are the stored ones.
* `sparseMerkleTree_proofs` : both, with the independence of the root from the history.
-/

namespace XChainSdk

open Hash Js HashTree

/-- A sibling as `prove` sends it. -/
def hexText (b : Bytes) : Js := str (toHex b)

@[simp] theorem toBuf_hexText (b : Bytes) : (hexText b).toBuf = some b := by simp [hexText]

theorem mapM_toBuf_hexText (bs : List Bytes) : (bs.map hexText).mapM Js.toBuf = some bs := by
  induction bs with
  | nil => rfl
  | cons b bs ih => simp [List.mapM_cons, ih]

/-! ### The wire form -/

section Wire

variable (H : Host)

/-- A sibling is sent when it is not the empty root of its height. -/
def isSent (e : Bytes × ℕ) : Bool := e.1 ≠ (EMPTY H (SMT_DEPTH - 1 - e.2)).bytes

theorem bitAt_replicate_zero (n i : ℕ) : bitAt (List.replicate n 0) i = false := by
  rw [bitAt, List.getD_eq_getElem?_getD, List.getElem?_replicate]
  split_ifs <;> simp

theorem length_setBit (bitmap : Bytes) (d : ℕ) : (setBit bitmap d).length = bitmap.length := by
  simp [setBit]

theorem bitAt_setBit {bitmap : Bytes} {d : ℕ} (hd : d / 8 < bitmap.length) (i : ℕ) :
    bitAt (setBit bitmap d) i = (bitAt bitmap i || i == d) := by
  rw [bitAt, bitAt, setBit, List.getD_eq_getElem?_getD, List.getElem?_modify,
    List.getD_eq_getElem?_getD]
  by_cases hbyte : d / 8 = i / 8
  · have hpow : (UInt8.ofNat (2 ^ (7 - d % 8))).toNat = 2 ^ (7 - d % 8) := by
      rw [UInt8.toNat_ofNat', Nat.mod_eq_of_lt]
      exact Nat.pow_lt_pow_right (by decide) (by omega)
    have hget : bitmap[i / 8]? = some bitmap[i / 8] := List.getElem?_eq_getElem (hbyte ▸ hd)
    rw [hget, Option.map_eq_map, Option.map_some, if_pos hbyte, Option.getD_some,
      Option.getD_some, UInt8.toNat_or, hpow, Nat.testBit_or, Nat.testBit_two_pow]
    congr 1
    rw [Bool.eq_iff_iff, decide_eq_true_eq, beq_iff_eq]
    omega
  · have hne : (i == d) = false := beq_false_of_ne fun h => hbyte (by rw [h])
    rw [hne, Bool.or_false]
    cases bitmap[i / 8]? <;> simp [hbyte]

/-- What `compressSmtProof` has collected after some siblings. -/
theorem foldl_compressStep (l : List (Bytes × ℕ)) (acc : Bytes × List Js)
    (hacc : acc.1.length = 32) (hl : ∀ e ∈ l, e.2 < 256) :
    (l.foldl (compressStep H) acc).1.length = 32 ∧
      (∀ i, bitAt (l.foldl (compressStep H) acc).1 i =
        (bitAt acc.1 i || l.any fun e => isSent H e && i == e.2)) ∧
      (l.foldl (compressStep H) acc).2 =
        acc.2 ++ (l.filter (isSent H)).map fun e => hexText e.1 := by
  induction l generalizing acc with
  | nil => simp [hacc]
  | cons e l ih =>
    have he : e.2 / 8 < acc.1.length := by
      have := hl e (by simp)
      omega
    by_cases hsent : e.1 = (EMPTY H (SMT_DEPTH - 1 - e.2)).bytes
    · have hstep : compressStep H acc e = acc := by rw [compressStep, if_pos hsent]
      have hsent' : isSent H e = false := by simp [isSent, hsent]
      have h := ih acc hacc fun e he => hl e (by simp [he])
      simp only [List.foldl_cons, hstep, List.any_cons, hsent', Bool.false_and, Bool.false_or,
        List.filter_cons_of_neg (Bool.not_eq_true _ ▸ hsent' : ¬ isSent H e = true)]
      exact h
    · have hstep : compressStep H acc e = (setBit acc.1 e.2, acc.2 ++ [hexText e.1]) := by
        rw [compressStep, if_neg hsent]; rfl
      have hsent' : isSent H e = true := by simp [isSent, hsent]
      obtain ⟨h1, h2, h3⟩ := ih (setBit acc.1 e.2, acc.2 ++ [hexText e.1])
        (by rw [length_setBit, hacc]) fun e he => hl e (by simp [he])
      simp only [List.foldl_cons, hstep, List.any_cons, hsent', Bool.true_and,
        List.filter_cons_of_pos hsent', List.map_cons]
      refine ⟨h1, fun i => ?_, by rw [h3, List.append_assoc]; rfl⟩
      rw [h2, bitAt_setBit he, Bool.or_assoc]

/-- `decompressSmtProof` reads the sent siblings back in their places. -/
theorem foldlM_decompressStep {bitmap : Bytes} {R : List Js} (sibs : List Bytes) (d : ℕ)
    (acc : List Js × ℕ)
    (hbit : ∀ i (h : i < sibs.length), bitAt bitmap (d + i) = isSent H (sibs[i], d + i))
    (hR : R.drop acc.2 = ((sibs.zipIdx d).filter (isSent H)).map fun e => hexText e.1)
    (hlen : acc.2 ≤ R.length) :
    (List.range' d sibs.length).foldlM (decompressStep H bitmap (arr R)) acc =
      some (acc.1 ++ sibs.map hexText, R.length) := by
  induction sibs generalizing d acc with
  | nil =>
    have hdrop : R.drop acc.2 = [] := by simpa using hR
    have hend : acc.2 = R.length := le_antisymm hlen (List.drop_eq_nil_iff.1 hdrop)
    simp [← hend]
  | cons s sibs ih =>
    have h0 : bitAt bitmap d = isSent H (s, d) := hbit 0 (by simp)
    have hrest : ∀ i (h : i < sibs.length),
        bitAt bitmap (d + 1 + i) = isSent H (sibs[i], d + 1 + i) := fun i hi => by
      have := hbit (i + 1) (by simpa using hi)
      rwa [show d + (i + 1) = d + 1 + i by omega] at this
    rw [List.length_cons, List.range'_succ, List.foldlM_cons]
    rw [List.zipIdx_cons] at hR
    cases hsent : isSent H (s, d) with
    | true =>
      rw [List.filter_cons_of_pos hsent, List.map_cons] at hR
      have hget : R[acc.2]? = some (hexText s) := by
        have := congrArg List.head? hR
        simpa using this
      have hlt : acc.2 < R.length := (List.getElem?_eq_some_iff.1 hget).1
      have hstep : decompressStep H bitmap (arr R) acc d = some (acc.1 ++ [hexText s], acc.2 + 1) := by
        rw [decompressStep, h0, hsent, if_pos rfl, Js.index, List.getD_eq_getElem?_getD, hget]
        rfl
      rw [hstep, Option.bind_eq_bind, Option.bind_some, ih (d + 1) _ hrest _ (Nat.succ_le_of_lt hlt)]
      · simp
      · have := congrArg List.tail hR
        simpa using this
    | false =>
      rw [List.filter_cons_of_neg (by simp [hsent])] at hR
      have hs : s = (EMPTY H (SMT_DEPTH - 1 - d)).bytes := by simpa [isSent] using hsent
      have hstep : decompressStep H bitmap (arr R) acc d = some (acc.1 ++ [hexText s], acc.2) := by
        rw [decompressStep, h0, hsent, hs]
        rfl
      rw [hstep, Option.bind_eq_bind, Option.bind_some, ih (d + 1) (acc.1 ++ [hexText s], acc.2) hrest hR hlen]
      simp

/-- The wire form of 256 siblings reads back as these siblings. -/
theorem decompressSmtProof_compressSmtProof {sibs : List Bytes} (hlen : sibs.length = SMT_DEPTH) :
    decompressSmtProof H (compressSmtProof H sibs) = some (sibs.map hexText) := by
  obtain ⟨h1, h2, h3⟩ := foldl_compressStep H sibs.zipIdx (List.replicate 32 0, []) (by simp)
    fun e he => by
      have := List.snd_lt_of_mem_zipIdx he
      simpa [hlen, SMT_DEPTH] using this
  have hcompress : compressSmtProof H sibs =
      obj [("bitmap", str (toHex (sibs.zipIdx.foldl (compressStep H) (List.replicate 32 0, [])).1)),
        ("siblings", arr (sibs.zipIdx.foldl (compressStep H) (List.replicate 32 0, [])).2)] := rfl
  generalize sibs.zipIdx.foldl (compressStep H) (List.replicate 32 0, []) = out at h1 h2 h3 hcompress
  have hbits : ∀ i (h : i < sibs.length), bitAt out.1 (0 + i) = isSent H (sibs[i], 0 + i) := by
    intro i hi
    rw [h2, bitAt_replicate_zero, Bool.false_or, Nat.zero_add, Bool.eq_iff_iff, List.any_eq_true]
    constructor
    · rintro ⟨e, he, hsent⟩
      rw [Bool.and_eq_true, beq_iff_eq] at hsent
      have hget := List.mem_zipIdx' he
      obtain ⟨hsent, rfl⟩ := hsent
      rw [← hget.2]
      exact hsent
    · intro hsent
      exact ⟨(sibs[i], i), List.mem_zipIdx_iff_getElem?.2 (by simp [hi]), by simpa using hsent⟩
  have hrun := foldlM_decompressStep H (R := out.2) sibs 0 ([], 0) hbits
    (by simpa using h3) (by simp)
  rw [hlen, ← List.range_eq_range'] at hrun
  have hb : (compressSmtProof H sibs).get "bitmap" = some (str (toHex out.1)) := by
    rw [hcompress]; rfl
  have hs : (compressSmtProof H sibs).get "siblings" = some (arr out.2) := by rw [hcompress]; rfl
  have hl : (arr out.2).get "length" = some (num (.fin out.2.length)) := rfl
  simp [decompressSmtProof, hb, hs, hl, hrun]

end Wire

/-! ### The verifiers -/

section Verifiers

variable {H : Host}

@[simp] theorem isHexOf_iff {x : Js} {node : Bytes} : isHexOf x node = true ↔ x = hexText node := by
  cases x <;> simp [isHexOf, str?, hexText]

/-- What an accepted proof consists of. -/
theorem verifySmtProof_eq_true_iff {rootHex leaf siblings : Js} {key : Digest} :
    verifySmtProof H rootHex key leaf siblings = some true ↔
      ∃ sibs b bufs, siblings = arr sibs ∧ leafBytes H leaf = some b ∧
        sibs.mapM Js.toBuf = some bufs ∧ bufs.length = SMT_DEPTH ∧
        rootHex = hexText (climb H.sha256 1 b ((keyBits key).zip bufs)) := by
  constructor
  · intro h
    unfold verifySmtProof at h
    split at h
    · next sibs =>
      by_cases hlen : sibs.length = SMT_DEPTH
      swap
      · simp [hlen] at h
      rw [if_neg (not_not.2 hlen)] at h
      obtain ⟨b, hb, h⟩ := Option.bind_eq_some_iff.1 h
      obtain ⟨bufs, hbufs, h⟩ := Option.bind_eq_some_iff.1 h
      have hbuflen : bufs.length = SMT_DEPTH := by
        rw [← (Loop.mapM_eq_some_iff.1 hbufs).length_eq]
        exact hlen
      refine ⟨sibs, b, bufs, rfl, hb, hbufs, hbuflen, ?_⟩
      rw [← smtFold_eq_climb H key b hbuflen]
      exact isHexOf_iff.1 (Option.some.inj h)
    · simp at h
  · rintro ⟨sibs, b, bufs, rfl, hb, hbufs, hlen, rfl⟩
    have hsibs : sibs.length = SMT_DEPTH := (Loop.mapM_eq_some_iff.1 hbufs).length_eq.trans hlen
    simp [verifySmtProof, hsibs, hb, hbufs, smtFold_eq_climb H key b hlen]

theorem verifyCompressedSmtProof_eq_true_iff {rootHex leaf compressed : Js} {key : Digest} :
    verifyCompressedSmtProof H rootHex key leaf compressed = some true ↔
      ∃ sibs, decompressSmtProof H compressed = some sibs ∧
        verifySmtProof H rootHex key leaf (arr sibs) = some true := by
  rw [verifyCompressedSmtProof]
  exact Option.bind_eq_some_iff

/-- The byte strings that `verifySmtProof` hashes. -/
def verifySmtProofHashed (H : Host) (key : Digest) (leaf siblings : Js) : Set Bytes :=
  {x | ∃ sibs b bufs, siblings = arr sibs ∧ leafBytes H leaf = some b ∧
    sibs.mapM Js.toBuf = some bufs ∧ x ∈ climbPreimages H.sha256 1 b ((keyBits key).zip bufs)}

/-- The byte strings that `verifyCompressedSmtProof` hashes, next to those of the table `EMPTY`. -/
def verifyCompressedSmtProofHashed (H : Host) (key : Digest) (leaf compressed : Js) : Set Bytes :=
  {x | ∃ sibs, decompressSmtProof H compressed = some sibs ∧
    x ∈ verifySmtProofHashed H key leaf (arr sibs)}

/-- The verifier sees the bytes of the claimed leaf only. -/
theorem verifySmtProof_congr {leaf leaf' : Js} (h : leafBytes H leaf = leafBytes H leaf')
    (rootHex siblings : Js) (key : Digest) :
    verifySmtProof H rootHex key leaf siblings = verifySmtProof H rootHex key leaf' siblings ∧
      verifySmtProofHashed H key leaf siblings = verifySmtProofHashed H key leaf' siblings := by
  simp only [verifySmtProof, verifySmtProofHashed, h, true_and]

end Verifiers

theorem leafBytes_leafText (H : Host) (o : Option Digest) :
    leafBytes H (leafText o) = some (o.getD (EMPTY H 0)).bytes := by
  cases o with
  | none => rfl
  | some v => exact toBuf_hexText v.bytes

theorem map_fst_keyBits_zip (key : Digest) {bufs : List Bytes} (h : bufs.length = SMT_DEPTH) :
    ((keyBits key).zip bufs).map Prod.fst = keyBits key :=
  List.map_fst_zip (by simp [h])

theorem keyBits_eq_append (key : Digest) :
    keyBits key = keyPath keyBit key 0 255 ++ [keyBit key 255] := by
  rw [keyBits, keyPath, keyPath, show SMT_DEPTH = 255 + 1 from rfl, List.range_succ,
    List.map_append, List.map_singleton, Nat.zero_add]

/-- The byte of a child that lies at the outer end of its node. -/
def outerByte (right : Bool) (v : Digest) : UInt8 :=
  if right then v.bytes.getLastD 0 else v.bytes.headD 0

/-- The rest of the node, next to the outer byte of the child `v`. -/
def restOfNode (right : Bool) (v : Digest) (s : Bytes) : Bytes :=
  if right then s ++ v.bytes.dropLast else v.bytes.tail ++ s

theorem pair_outerByte (tag : UInt8) (right : Bool) (v : Digest) (s : Bytes) :
    pair tag right [outerByte right v] (restOfNode right v s) = pair tag right v.bytes s := by
  have hne : v.bytes ≠ [] := fun h => by simpa [h] using v.length_eq
  cases right with
  | false =>
    have hhead : v.bytes = v.bytes.headD 0 :: v.bytes.tail := by
      obtain ⟨x, xs, hx⟩ := List.exists_cons_of_ne_nil hne
      rw [hx]
      rfl
    simp only [pair, outerByte, restOfNode, Bool.false_eq_true, if_false]
    rw [List.singleton_append, ← List.cons_append, ← hhead]
  | true =>
    have hlast : v.bytes = v.bytes.dropLast ++ [v.bytes.getLastD 0] := by
      rw [List.getLastD_eq_getLast?, List.getLast?_eq_some_getLast hne, Option.getD_some,
        List.dropLast_append_getLast]
    simp only [pair, outerByte, restOfNode, if_true]
    rw [List.append_assoc, ← hlast]

namespace SparseMerkleTree

variable (H : Host) (t : SparseMerkleTree) (key : Digest)

theorem length_proveSiblings : (proveSiblings H key SMT_DEPTH t.leaves).length = SMT_DEPTH := by
  rw [← siblings_tree, length_siblings (t.follow_keyBits H key), length_keyPath]

/-- The siblings of `prove` climb from the leaf at the key to the root. -/
theorem climb_proveSiblings :
    climb H.sha256 1 ((t.get key).getD (EMPTY H 0)).bytes
      ((keyBits key).zip ((proveSiblings H key SMT_DEPTH t.leaves).map Digest.bytes)) =
        (t.root H).bytes := by
  rw [← siblings_tree, ← root_tree]
  exact climb_siblings (t.follow_keyBits H key)

/-- **Completeness**, in the plain form. -/
theorem verifySmtProof_prove :
    verifySmtProof H (str (t.rootHex H)) key (t.prove H key).leaf_value
      (t.prove H key).siblings = some true := by
  refine verifySmtProof_eq_true_iff.2 ⟨_, _, (proveSiblings H key SMT_DEPTH t.leaves).map
    Digest.bytes, rfl, leafBytes_leafText H _, ?_, by rw [List.length_map, length_proveSiblings], ?_⟩
  · have := mapM_toBuf_hexText ((proveSiblings H key SMT_DEPTH t.leaves).map Digest.bytes)
    rwa [List.map_map] at this
  · rw [climb_proveSiblings]
    rfl

/-- Checking the proof of `prove` hashes nothing that computing the root did not. -/
theorem verifySmtProofHashed_prove :
    verifySmtProofHashed H key (t.prove H key).leaf_value (t.prove H key).siblings ⊆
      {x | x ∈ t.hashed H} := by
  rintro x ⟨sibs, b, bufs, hsibs, hb, hbufs, hx⟩
  have hsibs' : (t.prove H key).siblings =
      arr (((proveSiblings H key SMT_DEPTH t.leaves).map Digest.bytes).map hexText) := by
    rw [List.map_map]
    rfl
  cases hsibs'.symm.trans hsibs
  cases (leafBytes_leafText H _).symm.trans hb
  cases (mapM_toBuf_hexText _).symm.trans hbufs
  rw [← siblings_tree] at hx
  exact t.preimages_tree H (climbPreimages_siblings_subset (t.follow_keyBits H key) hx)

/-- Siblings that are accepted in the plain form are accepted in the wire form, with the same byte
strings hashed. -/
theorem verifyCompressedSmtProof_compress {H : Host} {rootHex leaf : Js} {key : Digest}
    {sibs : List Bytes} (hlen : sibs.length = SMT_DEPTH) {S : Set Bytes}
    (h : verifySmtProof H rootHex key leaf (arr (sibs.map hexText)) = some true ∧
      verifySmtProofHashed H key leaf (arr (sibs.map hexText)) ⊆ S) :
    verifyCompressedSmtProof H rootHex key leaf (compressSmtProof H sibs) = some true ∧
      verifyCompressedSmtProofHashed H key leaf (compressSmtProof H sibs) ⊆ S := by
  have hcompressed := decompressSmtProof_compressSmtProof H hlen
  refine ⟨verifyCompressedSmtProof_eq_true_iff.2 ⟨_, hcompressed, h.1⟩, ?_⟩
  rintro x ⟨sibs', hsibs', hx⟩
  cases hcompressed.symm.trans hsibs'
  exact h.2 hx

/-- **Completeness**, in the wire form. -/
theorem verifyCompressedSmtProof_prove :
    verifyCompressedSmtProof H (str (t.rootHex H)) key (t.prove H key).leaf_value
        (t.prove H key).compressed = some true ∧
      verifyCompressedSmtProofHashed H key (t.prove H key).leaf_value
        (t.prove H key).compressed ⊆ {x | x ∈ t.hashed H} := by
  have hlen : ((proveSiblings H key SMT_DEPTH t.leaves).map Digest.bytes).length = SMT_DEPTH := by
    rw [List.length_map, length_proveSiblings]
  have hplain := And.intro (verifySmtProof_prove H t key) (verifySmtProofHashed_prove H t key)
  have hsiblings : (t.prove H key).siblings =
      arr (((proveSiblings H key SMT_DEPTH t.leaves).map Digest.bytes).map hexText) := by
    rw [List.map_map]
    rfl
  have hcompressed : (t.prove H key).compressed = compressSmtProof H
      ((proveSiblings H key SMT_DEPTH t.leaves).map Digest.bytes) := by
    rw [prove]
  rw [hsiblings] at hplain
  rw [hcompressed]
  exact verifyCompressedSmtProof_compress hlen hplain

/-! ### Regrouped leaves -/

/-- The leaf at the end of the path of a key. -/
def endLeaf : Digest := (t.get key).getD (EMPTY H 0)

/-- The siblings along the first 255 bits of a key. -/
def upperSiblings : List Bytes :=
  ((t.tree H).siblings H.sha256 1 (keyPath keyBit key 0 255)).map Digest.bytes

/-- **A claimed leaf is accepted whenever it regroups** with a deepest sibling into the node above
the stored leaf: `verifySmtProof` does not check that they have 32 bytes each. -/
theorem verifySmtProof_regrouped {leaf : Js} {b s : Bytes} (hb : leafBytes H leaf = some b)
    {l r : DigestTree} (hnode : (t.tree H).follow (keyPath keyBit key 0 255) = some (.node l r))
    (h : pair 1 (keyBit key 255) b s =
      pair 1 false (l.root H.sha256 1).bytes (r.root H.sha256 1).bytes) :
    verifySmtProof H (str (t.rootHex H)) key leaf
        (arr ((t.upperSiblings H key ++ [s]).map hexText)) = some true ∧
      verifySmtProofHashed H key leaf (arr ((t.upperSiblings H key ++ [s]).map hexText)) ⊆
        {x | x ∈ t.hashed H} := by
  have hlen : (t.upperSiblings H key).length = 255 := by
    rw [upperSiblings, List.length_map, length_siblings hnode, length_keyPath]
  have hzip : (keyBits key).zip (t.upperSiblings H key ++ [s]) =
      (keyPath keyBit key 0 255).zip (t.upperSiblings H key) ++ [(keyBit key 255, s)] := by
    rw [keyBits_eq_append, List.zip_append (by rw [length_keyPath, hlen])]
    rfl
  obtain ⟨hclimb, hpre⟩ := climb_regrouped hnode h
  rw [upperSiblings] at hzip
  refine ⟨verifySmtProof_eq_true_iff.2 ⟨_, b, _, rfl, hb, mapM_toBuf_hexText _, ?_, ?_⟩, ?_⟩
  · rw [List.length_append, hlen]
    rfl
  · rw [upperSiblings, hzip, hclimb, root_tree]
    rfl
  · rintro x ⟨sibs, b', bufs, hsibs, hb', hbufs, hx⟩
    cases hsibs
    cases hb.symm.trans hb'
    cases (mapM_toBuf_hexText _).symm.trans hbufs
    rw [upperSiblings, hzip] at hx
    exact t.preimages_tree H (hpre hx)

/-- **A single byte is accepted** for the leaf that begins with it, or ends with it. -/
theorem exists_verifySmtProof_outerByte {leaf : Js}
    (hb : leafBytes H leaf = some [outerByte (keyBit key 255) (t.endLeaf H key)]) :
    ∃ sibs : List Bytes, sibs.length = SMT_DEPTH ∧
      verifySmtProof H (str (t.rootHex H)) key leaf (arr (sibs.map hexText)) = some true ∧
      verifySmtProofHashed H key leaf (arr (sibs.map hexText)) ⊆ {x | x ∈ t.hashed H} := by
  have hfollow := t.follow_keyBits H key
  rw [keyBits_eq_append] at hfollow
  obtain ⟨l, r, hnode, hchild⟩ := DigestTree.exists_node_of_follow_concat hfollow
  have hpair := pair_outerByte 1 (keyBit key 255) (t.endLeaf H key)
    ((DigestTree.child l r !keyBit key 255).root H.sha256 1).bytes
  have hroot : t.endLeaf H key = (DigestTree.child l r (keyBit key 255)).root H.sha256 1 := by
    rw [← hchild]
    rfl
  rw [hroot, pair_child, ← hroot] at hpair
  refine ⟨_, ?_, t.verifySmtProof_regrouped H key hb hnode hpair⟩
  rw [List.length_append, upperSiblings, List.length_map, length_siblings hnode, length_keyPath]
  rfl

section Soundness

variable {H t key} {S : Set Bytes} (hS : CollisionFree H.sha256 S)
include hS

/-- **Soundness**: 32 bytes that are accepted are those at the end of the key's path. -/
theorem leafBytes_of_verifySmtProof {leaf siblings : Js} {b : Bytes}
    (ht : ∀ x ∈ t.hashed H, x ∈ S) (hp : verifySmtProofHashed H key leaf siblings ⊆ S)
    (hb : leafBytes H leaf = some b) (hlen : b.length = 32)
    (h : verifySmtProof H (str (t.rootHex H)) key leaf siblings = some true) :
    b = ((t.get key).getD (EMPTY H 0)).bytes := by
  obtain ⟨sibs, b', bufs, rfl, hb', hbufs, hbuflen, hroot⟩ := verifySmtProof_eq_true_iff.1 h
  cases hb.symm.trans hb'
  have hroot : climb H.sha256 1 b ((keyBits key).zip bufs) =
      ((t.tree H).root H.sha256 1).bytes := by
    rw [root_tree]
    exact (toHex_injective (Js.str.inj hroot)).symm
  have hin : climbPreimages H.sha256 1 b ((keyBits key).zip bufs) ⊆ S := fun x hx =>
    hp ⟨sibs, b, bufs, rfl, hb, hbufs, hx⟩
  rcases climb_eq_root hS ((t.preimages_tree H).trans ht) hin hlen hroot with
    ⟨U, hU, hbU⟩ | ⟨q, e, r, v, hq, hv, -⟩
  · rw [map_fst_keyBits_zip key hbuflen, follow_keyBits] at hU
    cases hU
    exact hbU
  · -- no leaf lies above depth 256
    have hlong := congrArg List.length hq
    have hshort := t.length_of_follow H hv
    simp [hbuflen] at hlong hshort
    omega

/-- The empty leaf is not the hash of a leaf. -/
theorem getD_ne_empty (hleaf : ∀ e ∈ t.leaves, ∃ x, 0 :: x ∈ S ∧ e.2 = leafHash H x)
    (hempty : emptyLeafPreimage ∈ S) {v : Digest} (hv : t.get key = some v) : v ≠ EMPTY H 0 := by
  obtain ⟨x, hx, rfl⟩ := hleaf _ (mem_leaves_of_get hv)
  intro he
  exact absurd (hS hx hempty he) (by simp [emptyLeafPreimage])

end Soundness

end SparseMerkleTree

end XChainSdk
