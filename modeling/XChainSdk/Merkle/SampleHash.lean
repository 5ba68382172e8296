import XChainSdk.Merkle.SmtProofs

/-!
# A small hash without collisions on small trees

The security results assume that a hash has no collision among the byte strings that were hashed.
`sampleHash` is a computable hash for which this can be checked: a digest is a number below
`2 ^ 32`, the subtree of height `h` above the only leaf `1000 * k` has the number `1000 * k + h`,
and empty subtrees are the case `k = 0`.

* `samplePreimage` : reads the hashed byte string back from its digest, for the keys and leaves of
  a `Ledger`; `collisionFree_of_readsBack` is how collision freedom is shown.
* `samplePreimage_singleton` : it does so on the tree of a single leaf, for every key and leaf.
-/

namespace XChainSdk

open Hash Js HashTree

/-- A number below `2 ^ 32` as a digest. -/
def sampleDigest (n : ℕ) : Digest where
  bytes := List.replicate 28 0 ++
    [UInt8.ofNat (n / 2 ^ 24), UInt8.ofNat (n / 2 ^ 16), UInt8.ofNat (n / 2 ^ 8), UInt8.ofNat n]
  length_eq := rfl

/-- The number that bytes write. -/
def sampleCode (b : Bytes) : ℕ := b.foldl (fun n x => 256 * n + x.toNat) 0

theorem sampleCode_sampleDigest {n : ℕ} (h : n < 2 ^ 32) : sampleCode (sampleDigest n).bytes = n := by
  have hzero : (List.replicate 28 (0 : UInt8)).foldl (fun n x => 256 * n + x.toNat) 0 = 0 := rfl
  rw [sampleCode, sampleDigest, List.foldl_append, hzero]
  simp only [List.foldl_cons, List.foldl_nil, UInt8.toNat_ofNat']
  omega

/-- The number of a node.  Two subtrees of one height, of which one is empty, keep the number of
the other's leaf. -/
def sampleNode (a b : ℕ) : ℕ :=
  if a % 1000 = b % 1000 then
    if a < 1000 then b + 1
    else if b < 1000 then a + 1
    else (16 * (a / 1000) + b / 1000) * 1000 + a % 1000 + 1
  else (a / 1000 + b / 1000 + 500000) * 1000 + max (a % 1000) (b % 1000) + 1

/-- The sum of the bytes. -/
def byteSum (b : Bytes) : ℕ := (b.map UInt8.toNat).sum

/-- Leaves, nodes, the empty leaf, and keys. -/
def sampleHash : Bytes → Digest
  | 0 :: text => sampleDigest (1000 * byteSum text)
  | 1 :: rest => sampleDigest (sampleNode (sampleCode (rest.take 32)) (sampleCode (rest.drop 32)))
  | 2 :: _ => sampleDigest 0
  | key => ⟨UInt8.ofNat (byteSum key) :: List.replicate 31 0, rfl⟩

/-- A node of two numbers. -/
def samplePair (a b : ℕ) : Bytes := 1 :: ((sampleDigest a).bytes ++ (sampleDigest b).bytes)

theorem sampleHash_samplePair {a b : ℕ} (ha : a < 2 ^ 32) (hb : b < 2 ^ 32) :
    sampleHash (samplePair a b) = sampleDigest (sampleNode a b) := by
  have htake : ((sampleDigest a).bytes ++ (sampleDigest b).bytes).take 32 = (sampleDigest a).bytes :=
    List.take_left' (Digest.length_bytes _)
  have hdrop : ((sampleDigest a).bytes ++ (sampleDigest b).bytes).drop 32 = (sampleDigest b).bytes :=
    List.drop_left' (Digest.length_bytes _)
  rw [samplePair, sampleHash, htake, hdrop, sampleCode_sampleDigest ha, sampleCode_sampleDigest hb]

/-- What a sample tree consists of: the key and the leaf text of every leaf number, and the
children of the nodes that have more than one leaf below them. -/
structure Ledger where
  key : ℕ → Digest
  text : ℕ → Bytes
  top : List (ℕ × ℕ × ℕ)

/-- The node at height `h + 1` above the only leaf `k`, by the direction of its key. -/
def samplePath (L : Ledger) (k h : ℕ) : Bytes :=
  if keyBit (L.key k) (SMT_DEPTH - (h + 1)) then samplePair h (1000 * k + h)
  else samplePair (1000 * k + h) h

/-- The byte string with a number. -/
def samplePreimage (L : Ledger) (n : ℕ) : Bytes :=
  match L.top.lookup n with
  | some (a, b) => samplePair a b
  | none =>
    if n = 0 then emptyLeafPreimage
    else if n % 1000 = 0 then 0 :: L.text (n / 1000)
    else if n < 1000 then samplePair (n - 1) (n - 1)
    else samplePath L (n / 1000) (n % 1000 - 1)

/-- The byte string is read back from its digest. -/
def ReadsBack (L : Ledger) (x : Bytes) : Prop :=
  samplePreimage L (sampleCode (sampleHash x).bytes) = x

theorem collisionFree_of_readsBack (L : Ledger) {S : Set Bytes} (h : ∀ x ∈ S, ReadsBack L x) :
    CollisionFree sampleHash S := fun x hx y hy he => by
  have hx := h x hx
  rw [ReadsBack, he, h y hy] at hx
  exact hx.symm

/-- What reads back is hashed to a number. -/
theorem exists_sampleDigest_of_readsBack {L : Ledger} {x : Bytes} (h : ReadsBack L x) :
    ∃ n, sampleHash x = sampleDigest n := by
  rw [ReadsBack] at h
  generalize sampleCode (sampleHash x).bytes = n at h
  rw [← h, samplePreimage]
  split
  · exact ⟨_, rfl⟩
  · split_ifs
    · exact ⟨_, rfl⟩
    · exact ⟨_, rfl⟩
    · exact ⟨_, rfl⟩
    · rw [samplePath]
      split_ifs <;> exact ⟨_, rfl⟩

/-- Keys with distinct digests that are no numbers may be hashed as well. -/
theorem collisionFree_of_readsBack_keys (L : Ledger) {S : Set Bytes} (keys : List Bytes)
    (hkeys : (keys.map sampleHash).Nodup)
    (hhead : ∀ x ∈ keys, (sampleHash x).bytes.headD 0 ≠ 0)
    (h : ∀ x ∈ S, ReadsBack L x ∨ x ∈ keys) : CollisionFree sampleHash S := by
  intro x hx y hy he
  rcases h x hx with hx | hx <;> rcases h y hy with hy | hy
  · rw [ReadsBack, he, hy] at hx
    exact hx.symm
  · obtain ⟨n, hn⟩ := exists_sampleDigest_of_readsBack hx
    exact absurd (by rw [← he, hn]; rfl) (hhead y hy)
  · obtain ⟨n, hn⟩ := exists_sampleDigest_of_readsBack hy
    exact absurd (by rw [he, hn]; rfl) (hhead x hx)
  · exact List.inj_on_of_nodup_map hkeys hx hy he

/-- A host with this hash, where every signature verifies, and ASCII case tables. -/
def sampleHost : Host := asciiHost sampleHash fun _ _ _ => true

theorem nodeHash_sampleHost {a b : ℕ} (ha : a < 2 ^ 32) (hb : b < 2 ^ 32) :
    nodeHash sampleHost (sampleDigest a).bytes (sampleDigest b).bytes =
      sampleDigest (sampleNode a b) :=
  sampleHash_samplePair ha hb

theorem EMPTY_sampleHost {h : ℕ} (hh : h < 1000) : EMPTY sampleHost h = sampleDigest h := by
  induction h with
  | zero => rfl
  | succ h ih =>
    rw [EMPTY, ih (by omega), nodeHash_sampleHost (by omega) (by omega), sampleNode, if_pos rfl,
      if_pos (by omega)]

/-- No node with several leaves below it has the number of an empty subtree or of a single leaf. -/
def Ledger.Separate (L : Ledger) (n : ℕ) : Prop := L.top.lookup n = none

theorem Ledger.separate_of_top_eq_nil {L : Ledger} (h : L.top = []) (n : ℕ) : L.Separate n := by
  rw [Separate, h]
  rfl

/-- A node of two empty subtrees. -/
theorem readsBack_emptyPair {L : Ledger} {n : ℕ} (h : L.Separate (n + 1)) (hn : n < 999) :
    ReadsBack L (samplePair n n) := by
  have hnode : sampleNode n n = n + 1 := by rw [sampleNode, if_pos rfl, if_pos (by omega)]
  rw [ReadsBack, sampleHash_samplePair (by omega) (by omega), hnode,
    sampleCode_sampleDigest (by omega), samplePreimage,
    show L.top.lookup (n + 1) = none from h]
  simp [show (n + 1) % 1000 ≠ 0 by omega, show n + 1 < 1000 by omega]

theorem readsBack_emptyHashed {L : Ledger} (hL : ∀ n ≤ 256, L.Separate n) {x : Bytes}
    (hx : x ∈ emptyHashed sampleHost SMT_DEPTH) : ReadsBack L x := by
  rcases List.mem_cons.1 hx with rfl | hx
  · have hcode : sampleCode (sampleHash emptyLeafPreimage).bytes = 0 := by decide
    rw [ReadsBack, hcode, samplePreimage, hL 0 (by decide)]
    rfl
  · obtain ⟨h, hh, rfl⟩ := List.mem_map.1 hx
    have hh : h < 256 := List.mem_range.1 hh
    rw [EMPTY_sampleHost (by omega)]
    exact readsBack_emptyPair (hL _ (by omega)) (by omega)

theorem readsBack_leaf {L : Ledger} {text : Bytes} (htext : L.text (byteSum text) = text)
    (hpos : byteSum text ≠ 0) (hlt : byteSum text < 4000000)
    (hL : L.Separate (1000 * byteSum text)) : ReadsBack L (0 :: text) := by
  have hne : 1000 * byteSum text ≠ 0 := by omega
  rw [ReadsBack, sampleHash, sampleCode_sampleDigest (by omega), samplePreimage,
    show L.top.lookup (1000 * byteSum text) = none from hL]
  simp [hne, htext]

/-- A node of the table. -/
theorem readsBack_top {L : Ledger} {a b : ℕ} (h : L.top.lookup (sampleNode a b) = some (a, b))
    (ha : a < 2 ^ 32) (hb : b < 2 ^ 32) (hlt : sampleNode a b < 2 ^ 32) :
    ReadsBack L (samplePair a b) := by
  rw [ReadsBack, sampleHash_samplePair ha hb, sampleCode_sampleDigest hlt, samplePreimage, h]

/-- One node above a single leaf. -/
theorem readsBack_samplePath {L : Ledger} {k h : ℕ} (hk : 0 < k) (hk' : k < 4000000) (hh : h < 256)
    (hL : L.Separate (1000 * k + h + 1)) :
    sampleHash (samplePath L k h) = sampleDigest (1000 * k + (h + 1)) ∧
      ReadsBack L (samplePath L k h) := by
  have hleft : sampleNode (1000 * k + h) h = 1000 * k + (h + 1) := by
    rw [sampleNode, if_pos (by omega), if_neg (by omega), if_pos (by omega)]
    rfl
  have hright : sampleNode h (1000 * k + h) = 1000 * k + (h + 1) := by
    rw [sampleNode, if_pos (by omega), if_pos (by omega)]
    rfl
  have hhash : sampleHash (samplePath L k h) = sampleDigest (1000 * k + (h + 1)) := by
    rw [samplePath]
    split_ifs
    · rw [sampleHash_samplePair (by omega) (by omega), hright]
    · rw [sampleHash_samplePair (by omega) (by omega), hleft]
  refine ⟨hhash, ?_⟩
  have hmod : (1000 * k + (h + 1)) % 1000 = h + 1 := by omega
  have hdiv : (1000 * k + (h + 1)) / 1000 = k := by omega
  rw [ReadsBack, hhash, sampleCode_sampleDigest (by omega), samplePreimage,
    show L.top.lookup (1000 * k + (h + 1)) = none from hL]
  simp [show k ≠ 0 by omega, hmod, hdiv]
  omega

/-- **The tree of a single leaf** is numbered by its height, and every node of it reads back. -/
theorem samplePreimage_singleton {L : Ledger} {k : ℕ} (hk : 0 < k) (hk' : k < 4000000)
    {height : ℕ} (hh : height ≤ 256) (hL : ∀ h < height, L.Separate (1000 * k + h + 1)) :
    smtNode sampleHost height [(L.key k, sampleDigest (1000 * k))] =
        sampleDigest (1000 * k + height) ∧
      ∀ x ∈ smtNodeHashed sampleHost height [(L.key k, sampleDigest (1000 * k))],
        ReadsBack L x := by
  induction height with
  | zero => exact ⟨rfl, fun x hx => by cases hx⟩
  | succ height ih =>
    obtain ⟨hroot, hreads⟩ := ih (by omega) fun h hlt => hL h (by omega)
    obtain ⟨hhash, hpath⟩ := readsBack_samplePath hk hk' (show height < 256 by omega)
      (hL height (by omega))
    have hnil : smtNode sampleHost height [] = sampleDigest height := by
      rw [← EMPTY_sampleHost (by omega)]
      cases height <;> rfl
    have hnilHashed : smtNodeHashed sampleHost height [] = [] := by cases height <;> rfl
    have hsides : ∀ b, ([(L.key k, sampleDigest (1000 * k))] : List Entry).filter
        (fun e => keyBit e.1 (SMT_DEPTH - (height + 1)) == b) =
          if keyBit (L.key k) (SMT_DEPTH - (height + 1)) = b then
            [(L.key k, sampleDigest (1000 * k))] else [] := fun b => by
      simp [List.filter_cons]
    rw [samplePath] at hhash hpath
    cases hbit : keyBit (L.key k) (SMT_DEPTH - (height + 1)) with
    | false =>
      rw [hbit, if_neg (by simp)] at hhash hpath
      simp only [smtNode, smtNodeHashed, hsides, hbit, List.isEmpty_cons, Bool.false_eq_true,
        if_false, if_true, hroot, hnil, hnilHashed, List.append_nil]
      refine ⟨hhash, fun x hx => ?_⟩
      rcases List.mem_cons.1 hx with rfl | hx
      · exact hpath
      · exact hreads x hx
    | true =>
      rw [hbit, if_pos rfl] at hhash hpath
      simp only [smtNode, smtNodeHashed, hsides, hbit, List.isEmpty_cons, Bool.false_eq_true,
        if_false, if_true, hroot, hnil, hnilHashed, List.nil_append, reduceCtorEq]
      refine ⟨hhash, fun x hx => ?_⟩
      rcases List.mem_cons.1 hx with rfl | hx
      · exact hpath
      · exact hreads x hx

/-- **The tree of two leaves** that the first bit of their keys separates. -/
theorem samplePreimage_pair (L : Ledger) (k₀ k₁ : ℕ) (h₀ : 0 < k₀) (h₁ : 0 < k₁)
    (hlt₁ : k₁ < 4000000) (hlt : (16 * k₀ + k₁) * 1000 + 256 < 2 ^ 32) (hbit₀ : keyBit (L.key k₀) 0 = false)
    (hbit₁ : keyBit (L.key k₁) 0 = true)
    (hL₀ : ∀ h < 255, L.Separate (1000 * k₀ + h + 1))
    (hL₁ : ∀ h < 255, L.Separate (1000 * k₁ + h + 1))
    (htop : L.top.lookup ((16 * k₀ + k₁) * 1000 + 256) =
      some (1000 * k₀ + 255, 1000 * k₁ + 255)) :
    smtNode sampleHost SMT_DEPTH
        [(L.key k₁, sampleDigest (1000 * k₁)), (L.key k₀, sampleDigest (1000 * k₀))] =
        sampleDigest ((16 * k₀ + k₁) * 1000 + 256) ∧
      ∀ x ∈ smtNodeHashed sampleHost SMT_DEPTH
        [(L.key k₁, sampleDigest (1000 * k₁)), (L.key k₀, sampleDigest (1000 * k₀))],
        ReadsBack L x := by
  obtain ⟨hroot₀, hreads₀⟩ := samplePreimage_singleton h₀ (by omega) (show 255 ≤ 256 by decide) hL₀
  obtain ⟨hroot₁, hreads₁⟩ := samplePreimage_singleton h₁ hlt₁ (show 255 ≤ 256 by decide) hL₁
  have hnode : sampleNode (1000 * k₀ + 255) (1000 * k₁ + 255) = (16 * k₀ + k₁) * 1000 + 256 := by
    rw [sampleNode, if_pos (by omega), if_neg (by omega), if_neg (by omega)]
    omega
  have hsides : ∀ b, ([(L.key k₁, sampleDigest (1000 * k₁)),
      (L.key k₀, sampleDigest (1000 * k₀))] : List Entry).filter (fun e => keyBit e.1 0 == b) =
        if b then [(L.key k₁, sampleDigest (1000 * k₁))]
        else [(L.key k₀, sampleDigest (1000 * k₀))] := fun b => by
    cases b <;> simp [hbit₀, hbit₁]
  rw [show SMT_DEPTH = 255 + 1 from rfl, smtNode, smtNodeHashed,
    show SMT_DEPTH - (255 + 1) = 0 from rfl]
  simp only [hsides, List.isEmpty_cons, Bool.false_eq_true, if_false, if_true, hroot₀, hroot₁]
  refine ⟨?_, fun x hx => ?_⟩
  · rw [nodeHash_sampleHost (by omega) (by omega), hnode]
  · rcases List.mem_cons.1 hx with rfl | hx
    · exact readsBack_top (by rw [hnode, htop]) (by omega) (by omega) (by rw [hnode]; exact hlt)
    · rcases List.mem_append.1 hx with hx | hx
      · exact hreads₀ x hx
      · exact hreads₁ x hx

end XChainSdk
