import Mathlib.Data.Nat.Log
import XChainSdk.Merkle.BlockContent
import XChainSdk.Merkle.SampleHash

/-!
# Proofs in the fixed tree

The layers of `fixedMerkleRoot` have `2 ^ k` nodes, `2 ^ (k - 1)` nodes, and so on up to one, and a
proof lists the sibling in each of them.  The verifier takes as many siblings as it is given.

* `paddedLeaves` : the bottom layer, below `fixedDepth` others.
* `fixedMerkleProof` : the proof of a position.
* `lowBits` : the position that an index names in a layer.
* `follow_fixedTree` : the tree of the layers, as paths.
* `FixedMerkleExact` : the proof of every position is accepted, and an accepted leaf lies at the
  position of its index, with as many siblings as the tree is deep.
* `fixedMerkle_exact_iff` : **the tree is exact if and only if it has `2 ^ 30` leaves at most**.
-/

namespace XChainSdk

open Hash Js HashTree

/-! ### Layers -/

variable (H : Host)

/-- The leaves with empty leaves up to a power of two. -/
def paddedLeaves (leaves : List Digest) : List Digest :=
  leaves ++ List.replicate (2 ^ fixedDepth leaves.length - leaves.length) (EMPTY H 0)

@[simp] theorem length_paddedLeaves (leaves : List Digest) :
    (paddedLeaves H leaves).length = 2 ^ fixedDepth leaves.length := by
  have hle : leaves.length ≤ 2 ^ fixedDepth leaves.length := Nat.le_pow_clog one_lt_two _
  rw [paddedLeaves, List.length_append, List.length_replicate]
  omega

theorem getElem_paddedLeaves {leaves : List Digest} {i : ℕ} (h : i < leaves.length) :
    (paddedLeaves H leaves)[i]? = some leaves[i] := by
  rw [paddedLeaves, List.getElem?_append_left h, List.getElem?_eq_getElem h]

/-- The siblings of a position, in the layers up to a single node. -/
def siblingsUp : ℕ → List Bytes → ℕ → List Bytes
  | k + 1, a :: b :: rest, idx =>
    (a :: b :: rest).getD (idx ^^^ 1) [] :: siblingsUp k (nextLayer H (a :: b :: rest)) (idx / 2)
  | _, _, _ => []

/-- What `fixedMerkleProof` returns. -/
structure FixedMerkleProof where
  index : ℕ
  siblings : List String
  deriving DecidableEq

/-- `fixedMerkleProof`: an index out of range throws, and a width that is not found is no answer
either. -/
def fixedMerkleProof (leaves : List Bytes) (index : ℤ) : Option FixedMerkleProof :=
  if index < 0 ∨ (leaves.length : ℤ) ≤ index then none
  else (nextPow2 leaves.length).map fun width =>
    let layer := leaves ++ List.replicate (width - leaves.length) (EMPTY H 0).bytes
    ⟨index.toNat, (siblingsUp H width layer index.toNat).map toHex⟩

variable {H}

/-- A node of the next layer hashes the pair below it. -/
theorem getD_nextLayer {layer : List Bytes} {j : ℕ} (h : 2 * j + 1 < layer.length) :
    (nextLayer H layer).getD j [] =
      (nodeHash H (layer.getD (2 * j) []) (layer.getD (2 * j + 1) [])).bytes := by
  induction layer using nextLayer.induct generalizing j with
  | case1 a b rest ih =>
    rw [nextLayer]
    cases j with
    | zero => rfl
    | succ j => exact ih (by simp at h; omega)
  | case2 rest hrest =>
    rcases rest with _ | ⟨a, _ | ⟨b, rest⟩⟩
    · simp at h
    · simp at h
    · exact absurd rfl (hrest a b rest)

theorem length_nextLayer {layer : List Bytes} {k : ℕ} (h : layer.length = 2 * k) :
    (nextLayer H layer).length = k := by
  induction layer using nextLayer.induct generalizing k with
  | case1 a b rest ih =>
    rw [nextLayer, List.length_cons, ih (k := k - 1) (by simp at h; omega)]
    simp at h
    omega
  | case2 rest hrest =>
    rcases rest with _ | ⟨a, _ | ⟨b, rest⟩⟩
    · simp at h
      subst h
      rfl
    · simp at h
      omega
    · exact absurd rfl (hrest a b rest)

/-- A position and its sibling make up the node above them. -/
theorem pair_sibling {layer : List Bytes} {i k : ℕ} (h : layer.length = 2 * k) (hi : i < 2 * k) :
    (H.sha256 (pair 1 (decide (i % 2 = 1)) (layer.getD i []) (layer.getD (i ^^^ 1) []))).bytes =
      (nextLayer H layer).getD (i / 2) [] := by
  have hdiv : (i ^^^ 1) / 2 = i / 2 := by rw [Nat.xor_div_two]; simp
  have hmod : (i ^^^ 1) % 2 = 1 ↔ ¬ i % 2 = 1 := by
    rw [Nat.xor_mod_two_eq_one]
    omega
  rw [getD_nextLayer (by omega)]
  by_cases hodd : i % 2 = 1
  · rw [show i ^^^ 1 = 2 * (i / 2) by omega, show i = 2 * (i / 2) + 1 by omega]
    simp [pair, nodeHash, show (2 * (i / 2) + 1) / 2 = i / 2 by omega]
  · rw [show i ^^^ 1 = 2 * (i / 2) + 1 by omega]
    conv_lhs => rw [show i = 2 * (i / 2) by omega]
    simp [pair, nodeHash]

/-- **The siblings of a position climb to the root.** -/
theorem climb_siblingsUp {k fuel i : ℕ} {layer : List Bytes} (hlen : layer.length = 2 ^ k)
    (hfuel : k ≤ fuel) (hi : i < 2 ^ k) :
    climb H.sha256 1 (layer.getD i []) (fixedPath i (siblingsUp H fuel layer i)) =
      foldLayers H fuel layer := by
  induction k generalizing fuel layer i with
  | zero =>
    obtain ⟨a, rfl⟩ := List.length_eq_one_iff.1 hlen
    obtain rfl : i = 0 := by
      rw [Nat.pow_zero] at hi
      omega
    cases fuel <;> rfl
  | succ k ih =>
    obtain ⟨fuel, rfl⟩ : ∃ f, fuel = f + 1 := ⟨fuel - 1, by omega⟩
    rw [Nat.pow_succ'] at hlen hi
    obtain _ | ⟨a, _ | ⟨b, rest⟩⟩ := layer
    · have := Nat.two_pow_pos k
      rw [List.length_nil] at hlen
      omega
    · rw [List.length_singleton] at hlen
      omega
    · rw [siblingsUp, fixedPath, climb_append, foldLayers]
      have hfuel' : k ≤ fuel := by omega
      have hi' : i / 2 < 2 ^ k := by omega
      have hup := ih (length_nextLayer (H := H) hlen) hfuel' hi'
      rw [← hup, ← pair_sibling hlen hi]
      rfl

theorem length_siblingsUp {k fuel i : ℕ} {layer : List Bytes} (hlen : layer.length = 2 ^ k)
    (hfuel : k ≤ fuel) : (siblingsUp H fuel layer i).length = k := by
  induction k generalizing fuel layer i with
  | zero =>
    obtain ⟨a, rfl⟩ := List.length_eq_one_iff.1 hlen
    cases fuel <;> rfl
  | succ k ih =>
    obtain ⟨fuel, rfl⟩ : ∃ f, fuel = f + 1 := ⟨fuel - 1, by omega⟩
    rw [Nat.pow_succ'] at hlen
    obtain _ | ⟨a, _ | ⟨b, rest⟩⟩ := layer
    · have := Nat.two_pow_pos k
      rw [List.length_nil] at hlen
      omega
    · rw [List.length_singleton] at hlen
      omega
    · rw [siblingsUp, List.length_cons, ih (length_nextLayer (H := H) hlen) (by omega)]

/-! ### Paths -/

/-- Below the top `j` directions of a position come its last `k`. -/
theorem slotDirs_add (n j k : ℕ) : slotDirs n (j + k) = slotDirs (n / 2 ^ k) j ++ slotDirs n k := by
  induction k generalizing n with
  | zero => simp [slotDirs]
  | succ k ih =>
    rw [← Nat.add_assoc, slotDirs, ih, slotDirs, List.append_assoc, Nat.div_div_eq_div_mul,
      ← Nat.pow_succ']

theorem getElem?_pairTrees {ts : List DigestTree} {j : ℕ} {l r : DigestTree}
    (hl : ts[2 * j]? = some l) (hr : ts[2 * j + 1]? = some r) :
    (pairTrees ts)[j]? = some (.node l r) := by
  induction ts using pairTrees.induct generalizing j with
  | case1 a b rest ih =>
    rw [pairTrees]
    cases j with
    | zero =>
      cases hl
      cases hr
      rfl
    | succ j => exact ih (by simpa [Nat.mul_succ] using hl) (by simpa [Nat.mul_succ] using hr)
  | case2 rest hrest =>
    rcases rest with _ | ⟨a, _ | ⟨b, rest⟩⟩
    · simp at hl
    · simp at hr
    · exact absurd rfl (hrest a b rest)

theorem length_pairTrees {ts : List DigestTree} {k : ℕ} (h : ts.length = 2 * k) :
    (pairTrees ts).length = k := by
  induction ts using pairTrees.induct generalizing k with
  | case1 a b rest ih =>
    rw [pairTrees, List.length_cons, ih (k := k - 1) (by simp at h; omega)]
    simp at h
    omega
  | case2 rest hrest =>
    rcases rest with _ | ⟨a, _ | ⟨b, rest⟩⟩
    · simp at h
      subst h
      rfl
    · simp at h
      omega
    · exact absurd rfl (hrest a b rest)

/-- The directions of a position lead to it. -/
theorem follow_foldTrees {empty : DigestTree} {k fuel : ℕ} {ts : List DigestTree}
    (hlen : ts.length = 2 ^ k) (hfuel : k ≤ fuel) (n : ℕ) :
    (foldTrees empty fuel ts).follow (slotDirs n k) = ts[n % 2 ^ k]? := by
  induction k generalizing fuel ts n with
  | zero =>
    obtain ⟨a, rfl⟩ := List.length_eq_one_iff.1 hlen
    rw [Nat.pow_zero, Nat.mod_one]
    cases fuel <;> rfl
  | succ k ih =>
    obtain ⟨fuel, rfl⟩ : ∃ f, fuel = f + 1 := ⟨fuel - 1, by omega⟩
    rw [Nat.pow_succ'] at hlen
    have hpos := Nat.mod_lt (n / 2) (Nat.two_pow_pos k)
    have hmod : n % (2 * 2 ^ k) = 2 * (n / 2 % 2 ^ k) + n % 2 := by
      rw [Nat.mod_mul]
      omega
    set j := n / 2 % 2 ^ k with hj
    have hl : ts[2 * j]? = some ts[2 * j] := List.getElem?_eq_getElem (by omega)
    have hr : ts[2 * j + 1]? = some ts[2 * j + 1] := List.getElem?_eq_getElem (by omega)
    have hfold : foldTrees empty (fuel + 1) ts = foldTrees empty fuel (pairTrees ts) := by
      obtain _ | ⟨a, _ | ⟨b, rest⟩⟩ := ts
      · simp at hlen
      · simp at hlen
        omega
      · rfl
    have hfuel' : k ≤ fuel := by omega
    have hup := ih (length_pairTrees hlen) hfuel' (n / 2)
    rw [← hj, getElem?_pairTrees hl hr] at hup
    rw [hfold, slotDirs, DigestTree.follow_append hup, DigestTree.follow_node_cons,
      DigestTree.follow_nil, Nat.pow_succ', hmod]
    by_cases hodd : n % 2 = 1
    · simp [DigestTree.child, hodd, hr]
    · simp [DigestTree.child, hl, show n % 2 = 0 by omega]

/-- **The directions of a position lead to its leaf.** -/
theorem follow_fixedTree (leaves : List Digest) (n : ℕ) :
    (fixedTree H leaves).follow (slotDirs n (fixedDepth leaves.length)) =
      ((paddedLeaves H leaves)[n % 2 ^ fixedDepth leaves.length]?).map DigestTree.leaf := by
  have hpad : leaves.map DigestTree.leaf ++ List.replicate
        (2 ^ fixedDepth leaves.length - leaves.length) (DigestTree.leaf (EMPTY H 0)) =
      (paddedLeaves H leaves).map DigestTree.leaf := by
    rw [paddedLeaves, List.map_append, List.map_replicate]
  rw [fixedTree]
  simp only [hpad]
  rw [follow_foldTrees (by simp) (Nat.lt_two_pow_self.le.trans' le_rfl), List.getElem?_map]

/-- A leaf of the padded layer at the end of every path of the depth. -/
theorem exists_follow_fixedTree (leaves : List Digest) (n : ℕ) :
    ∃ v ∈ paddedLeaves H leaves, (paddedLeaves H leaves)[n % 2 ^ fixedDepth leaves.length]? = some v ∧
      (fixedTree H leaves).follow (slotDirs n (fixedDepth leaves.length)) = some (.leaf v) := by
  have hlt : n % 2 ^ fixedDepth leaves.length < (paddedLeaves H leaves).length := by
    rw [length_paddedLeaves]
    exact Nat.mod_lt _ (Nat.two_pow_pos _)
  refine ⟨_, List.getElem_mem hlt, List.getElem?_eq_getElem hlt, ?_⟩
  rw [follow_fixedTree, List.getElem?_eq_getElem hlt]
  rfl

/-- Directions that end at a leaf are as many as the tree is deep. -/
theorem length_of_follow_fixedTree {leaves : List Digest} {n len : ℕ} {v : Digest}
    (h : (fixedTree H leaves).follow (slotDirs n len) = some (.leaf v)) :
    len = fixedDepth leaves.length := by
  set k := fixedDepth leaves.length with hk
  rcases lt_trichotomy len k with hlt | heq | hgt
  · -- a longer path leads to a leaf as well
    obtain ⟨j, hj⟩ : ∃ j, k = len + (j + 1) := ⟨k - len - 1, by omega⟩
    obtain ⟨w, -, -, hw⟩ := exists_follow_fixedTree (H := H) leaves (n * 2 ^ (j + 1))
    rw [← hk, hj, slotDirs_add, Nat.mul_div_cancel _ (Nat.two_pow_pos _), DigestTree.follow_append h] at hw
    have hne : slotDirs (n * 2 ^ (j + 1)) (j + 1) ≠ [] := by
      rw [← List.length_pos_iff, length_slotDirs]
      omega
    obtain ⟨d, ds, hcons⟩ := List.exists_cons_of_ne_nil hne
    rw [hcons] at hw
    cases hw
  · exact heq
  · obtain ⟨j, rfl⟩ : ∃ j, len = k + (j + 1) := ⟨len - k - 1, by omega⟩
    obtain ⟨w, -, -, hw⟩ := exists_follow_fixedTree (H := H) leaves (n / 2 ^ (j + 1))
    rw [slotDirs_add, DigestTree.follow_append hw] at h
    have hne : slotDirs n (j + 1) ≠ [] := by
      rw [← List.length_pos_iff, length_slotDirs]
      omega
    obtain ⟨d, ds, hcons⟩ := List.exists_cons_of_ne_nil hne
    rw [hcons] at h
    cases h

/-- Every list of directions is that of a position. -/
theorem exists_slotDirs (ds : List Bool) : ∃ n, ds = slotDirs n ds.length := by
  induction ds using List.reverseRecOn with
  | nil => exact ⟨0, rfl⟩
  | append_singleton ds d ih =>
    obtain ⟨n, hn⟩ := ih
    refine ⟨2 * n + d.toNat, ?_⟩
    have hbit : decide ((2 * n + d.toNat) % 2 = 1) = d := by cases d <;> simp
    have hrest : (2 * n + d.toNat) / 2 = n := by
      cases d
      · simp
      · simp
        omega
    rw [List.length_append, List.length_singleton, slotDirs, hbit, hrest, ← hn]

/-- Every leaf of the tree is in the padded layer. -/
theorem mem_of_follow_fixedTree {leaves : List Digest} {ds : List Bool} {w : Digest}
    (h : (fixedTree H leaves).follow ds = some (.leaf w)) : w ∈ paddedLeaves H leaves := by
  obtain ⟨n, hn⟩ := exists_slotDirs ds
  rw [hn] at h
  obtain ⟨v, hmem, -, hv⟩ := exists_follow_fixedTree (H := H) leaves n
  rw [length_of_follow_fixedTree h, hv] at h
  cases h
  exact hmem

/-! ### Indices -/

/-- The position that an index names in a layer of `2 ^ k` nodes. -/
def lowBits (index : Js) (k : ℕ) : ℕ := ((index.toInt32.getD 0) % 2 ^ k).toNat

theorem lowBits_lt (index : Js) (k : ℕ) : lowBits index k < 2 ^ k := by
  have hpos : (0 : ℤ) < 2 ^ k := by positivity
  have hlt := Int.emod_lt_of_pos (index.toInt32.getD 0) hpos
  have h0 := Int.emod_nonneg (index.toInt32.getD 0) hpos.ne'
  rw [lowBits]
  zify
  rw [Int.toNat_of_nonneg h0]
  exact hlt

theorem toInt32_bounds {x : Js} {idx : ℤ} (h : x.toInt32 = some idx) :
    -2 ^ 31 ≤ idx ∧ idx < 2 ^ 31 := by
  have hmod : ∀ z : ℤ, -2 ^ 31 ≤ Int.bmod z (2 ^ 32) ∧ Int.bmod z (2 ^ 32) < 2 ^ 31 := by
    intro z
    have hle := Int.le_bmod (x := z) (m := 2 ^ 32) (by norm_num)
    have hlt := Int.bmod_lt (x := z) (m := 2 ^ 32) (by norm_num)
    norm_num at hle hlt ⊢
    omega
  cases x with
  | bigint z => cases h
  | _ =>
    simp only [Js.toInt32, Option.some.injEq] at h
    rw [← h]
    split
    · exact hmod _
    · norm_num

theorem toInt32_intCast {z : ℤ} (hle : -2 ^ 31 ≤ z) (hlt : z < 2 ^ 31) :
    (num (.fin (z : ℚ))).toInt32 = some z := by
  have htrunc : (if (z : ℚ) < 0 then -⌊-(z : ℚ)⌋ else ⌊(z : ℚ)⌋) = z := by
    rw [← Int.cast_neg, Int.floor_intCast, Int.floor_intCast]
    split <;> omega
  simp only [Js.toInt32, Js.toNumber, htrunc, Option.some.injEq]
  exact Int.bmod_eq_of_le (by norm_num; omega) (by norm_num; omega)

/-- The low bits of a halved index. -/
theorem emod_pow_succ (z : ℤ) (k : ℕ) :
    z % 2 ^ (k + 1) = 2 * (z / 2 % 2 ^ k) + z % 2 := by
  have hpos : (0 : ℤ) < 2 ^ k := by positivity
  have h0 := Int.emod_nonneg (z / 2) hpos.ne'
  have h1 := Int.emod_lt_of_pos (z / 2) hpos
  have hz : z = 2 * (z / 2 % 2 ^ k) + z % 2 + 2 ^ (k + 1) * (z / 2 / 2 ^ k) := by
    have hhalf := Int.emod_add_mul_ediv (z / 2) (2 ^ k)
    rw [pow_succ', mul_assoc]
    omega
  conv_lhs => rw [hz, Int.add_mul_emod_self_left]
  refine Int.emod_eq_of_lt (by omega) ?_
  rw [pow_succ']
  omega

/-- The path of an index is that of its low bits. -/
theorem indexPath_eq_some {index : Js} {sibs : List Js} {p : Path}
    (h : indexPath index sibs = some p) :
    ∃ bufs, sibs.mapM Js.toBuf = some bufs ∧ p = fixedPath (lowBits index sibs.length) bufs := by
  induction sibs generalizing index p with
  | nil =>
    cases h
    exact ⟨[], rfl, rfl⟩
  | cons sib sibs ih =>
    obtain ⟨idx, hidx, h⟩ := Option.bind_eq_some_iff.1 h
    obtain ⟨s, hs, h⟩ := Option.bind_eq_some_iff.1 h
    obtain ⟨p', hp', h⟩ := Option.bind_eq_some_iff.1 h
    cases h
    obtain ⟨bufs, hbufs, rfl⟩ := ih hp'
    refine ⟨s :: bufs, by simp [List.mapM_cons, hs, hbufs], ?_⟩
    obtain ⟨hle, hlt⟩ := toInt32_bounds hidx
    have hhalf : (num (.fin ((idx / 2 : ℤ) : ℚ))).toInt32 = some (idx / 2) :=
      toInt32_intCast (by omega) (by omega)
    have hpow : (0 : ℤ) < 2 ^ sibs.length := by positivity
    have hnonneg := Int.emod_nonneg (idx / 2) hpow.ne'
    have hlow : lowBits index (sibs.length + 1) =
        2 * lowBits (num (.fin ((idx / 2 : ℤ) : ℚ))) sibs.length + (idx % 2).toNat := by
      rw [lowBits, lowBits, hidx, hhalf, Option.getD_some, Option.getD_some, emod_pow_succ]
      omega
    have hparity : decide (idx % 2 ≠ 0) = decide (lowBits index (sibs.length + 1) % 2 = 1) := by
      rw [decide_eq_decide, hlow]
      omega
    rw [List.length_cons, fixedPath, hparity]
    congr 2
    omega

/-- The verifier's loop runs through the siblings that can be read. -/
theorem exists_foldlM_fixedStep {sibs : List Js} {bufs : List Bytes} {index : Js} {idx : ℤ}
    (hidx : index.toInt32 = some idx) (hbufs : sibs.mapM Js.toBuf = some bufs) (leaf : Bytes) :
    ∃ out, sibs.foldlM (fixedStep H) (leaf, index) = some out := by
  induction sibs generalizing leaf index idx bufs with
  | nil => exact ⟨_, rfl⟩
  | cons sib sibs ih =>
    obtain ⟨s, bufs, hs, hrest, rfl⟩ :=
      List.forall₂_cons_left_iff.1 (Loop.mapM_eq_some_iff.1 hbufs)
    obtain ⟨hle, hlt⟩ := toInt32_bounds hidx
    have hhalf : (num (.fin ((idx / 2 : ℤ) : ℚ))).toInt32 = some (idx / 2) :=
      toInt32_intCast (by omega) (by omega)
    rw [List.foldlM_cons]
    simp only [fixedStep, hidx, hs, Option.bind_eq_bind, Option.bind_some, Option.pure_def]
    exact ih hhalf (Loop.mapM_eq_some_iff.2 hrest) _

/-! ### Proofs -/

/-- The byte strings that are hashed for the tree and for a proof. -/
def fixedHashed (H : Host) (leaves : List Digest) (leaf : Digest) (index siblings : Js) :
    Set Bytes :=
  insert emptyLeafPreimage ((fixedTree H leaves).preimages H.sha256 1 ∪
    fixedProofHashed H leaf.bytes index siblings)

/-- An index below `2 ^ 32` names its own position in a layer. -/
theorem lowBits_natCast {i k : ℕ} (hi : i < 2 ^ k) (hk : k ≤ 32) :
    lowBits (num (.fin (i : ℚ))) k = i := by
  have hneg : ¬ ((i : ℚ) < 0) := not_lt.2 (Nat.cast_nonneg i)
  have hidx : (num (.fin (i : ℚ))).toInt32 = some (Int.bmod i (2 ^ 32)) := by
    simp only [Js.toInt32, Js.toNumber, if_neg hneg]
    rw [show (⌊(i : ℚ)⌋ : ℤ) = i from Int.floor_natCast i]
  have hdvd : ((2 ^ k : ℕ) : ℤ) ∣ ((2 ^ 32 : ℕ) : ℤ) := by
    exact_mod_cast pow_dvd_pow 2 hk
  have hmod : Int.bmod i (2 ^ 32) % 2 ^ k = i % 2 ^ k := by
    have hsame := Int.bmod_emod (x := (i : ℤ)) (m := 2 ^ 32)
    have hrest := congrArg (fun z : ℤ => z % ((2 ^ k : ℕ) : ℤ)) hsame
    simp only [Int.emod_emod_of_dvd _ hdvd] at hrest
    push_cast at hrest
    exact hrest
  rw [lowBits, hidx, Option.getD_some, hmod, Int.emod_eq_of_lt (by omega) (by exact_mod_cast hi)]
  rfl

/-- The proof of a position is accepted, for any index with its low bits. -/
theorem verify_fixedMerkleProof {leaves : List Digest} (hsmall : leaves.length ≤ 2 ^ 30) {i : ℕ}
    (hi : i < leaves.length) {index : Js} {idx : ℤ} (hidx : index.toInt32 = some idx)
    (hlow : lowBits index (fixedDepth leaves.length) = i) :
    ∃ proof, fixedMerkleProof H (leaves.map Digest.bytes) i = some proof ∧ proof.index = i ∧
      verifyFixedMerkleProof H (hexText (rootBytes H (fixedTree H leaves)))
        leaves[i].bytes index (.arr (proof.siblings.map .str)) = some true := by
  set k := fixedDepth leaves.length with hk
  set layer := (paddedLeaves H leaves).map Digest.bytes with hlayer
  have hlen : layer.length = 2 ^ k := by rw [hlayer, List.length_map, length_paddedLeaves]
  have hpad : leaves.map Digest.bytes ++ List.replicate (2 ^ k - leaves.length)
      (EMPTY H 0).bytes = layer := by
    rw [hlayer, paddedLeaves, List.map_append, List.map_replicate]
  have hfuel : k ≤ 2 ^ k := Nat.lt_two_pow_self.le
  have hle : leaves.length ≤ 2 ^ k := Nat.le_pow_clog one_lt_two _
  have hleaf : layer.getD i [] = leaves[i].bytes := by
    rw [hlayer, List.getD_eq_getElem?_getD, List.getElem?_map, getElem_paddedLeaves H hi]
    rfl
  refine ⟨⟨i, (siblingsUp H (2 ^ k) layer i).map toHex⟩, ?_, rfl, ?_⟩
  · rw [fixedMerkleProof, if_neg (by simp; omega), List.length_map, nextPow2_of_le hsmall]
    simp only [Option.map_some, ← hk, hpad, Int.toNat_natCast]
  · have hbufs : ((siblingsUp H (2 ^ k) layer i).map fun b => Js.str (toHex b)).mapM Js.toBuf =
        some (siblingsUp H (2 ^ k) layer i) := by
      rw [Loop.mapM_eq_some_iff, List.forall₂_map_left_iff, List.forall₂_same]
      intro b _
      exact congrArg some (hexDecode_toHex b)
    obtain ⟨out, hout⟩ := exists_foldlM_fixedStep (H := H) hidx hbufs leaves[i].bytes
    obtain ⟨p, hp, hclimb⟩ := indexPath_of_foldlM hout
    obtain ⟨bufs, hbufs', rfl⟩ := indexPath_eq_some hp
    cases hbufs.symm.trans hbufs'
    rw [List.length_map, length_siblingsUp hlen hfuel, hlow] at hclimb
    rw [← hleaf, climb_siblingsUp hlen hfuel (hi.trans_le hle)] at hclimb
    have hroot : rootBytes H (fixedTree H leaves) = foldLayers H (2 ^ k) layer := by
      have hne : leaves.map Digest.bytes ≠ [] := by
        rw [ne_eq, List.map_eq_nil_iff]
        rintro rfl
        simp at hi
      have htree := root_fixedTree (H := H) hsmall
      rw [fixedMerkleRoot, if_neg hne, List.length_map, nextPow2_of_le hsmall] at htree
      simp only [Option.map_some, ← hk, hpad] at htree
      exact (Option.some.inj htree).symm
    rw [verifyFixedMerkleProof, List.map_map]
    simp only [Js.iter, Option.bind_eq_bind, Option.bind_some]
    rw [show (Js.str ∘ toHex) = fun b => Js.str (toHex b) from rfl, hleaf] at *
    rw [hout, Option.bind_some, hroot, ← hclimb]
    exact congrArg some (isHexOf_iff.2 rfl)

/-- A leaf that is accepted lies at the position of its index, and the siblings are as many as the
tree is deep. -/
theorem verifyFixedMerkleProof_sound {leaves : List Digest} {leaf : Digest} {index siblings : Js}
    (hS : CollisionFree H.sha256 (fixedHashed H leaves leaf index siblings))
    (himage : ∀ v ∈ leaf :: leaves,
      v ∉ nodeImages H.sha256 1 (fixedHashed H leaves leaf index siblings))
    (h : verifyFixedMerkleProof H (hexText (rootBytes H (fixedTree H leaves))) leaf.bytes index
      siblings = some true) :
    ∃ sibs, siblings.iter = some sibs ∧ sibs.length = fixedDepth leaves.length ∧
      (paddedLeaves H leaves)[lowBits index (fixedDepth leaves.length)]? = some leaf := by
  obtain ⟨sibs, hsibs, hrun⟩ := Option.bind_eq_some_iff.1 h
  obtain ⟨out, hout, hroot⟩ := Option.bind_eq_some_iff.1 hrun
  obtain ⟨p, hp, hclimb⟩ := indexPath_of_foldlM hout
  obtain ⟨bufs, hbufs, rfl⟩ := indexPath_eq_some hp
  have hlen : bufs.length = sibs.length := (Loop.mapM_eq_some_iff.1 hbufs).length_eq.symm
  set S := fixedHashed H leaves leaf index siblings with hSdef
  have hempty : EMPTY H 0 ∉ nodeImages H.sha256 1 S :=
    notMem_nodeImages hS (P := {emptyLeafPreimage}) (by rintro x rfl; exact .inl rfl)
      (by rintro x rfl; simp [emptyLeafPreimage]) rfl
  have hleaves : ∀ ds w, (fixedTree H leaves).follow ds = some (.leaf w) →
      w ∉ nodeImages H.sha256 1 S := by
    intro ds w hw
    rcases List.mem_append.1 (mem_of_follow_fixedTree hw) with hmem | hmem
    · exact himage w (by simp [hmem])
    · rw [List.eq_of_mem_replicate hmem]
      exact hempty
  have hfollow := follow_eq_leaf_of_notMem hS (fun x hx => .inr (.inl hx)) hleaves
    (himage leaf (by simp)) (fun x hx => .inr (.inr ⟨sibs, _, hsibs, hp, hx⟩)) (by
      rw [← hclimb]
      exact (toHex_injective (Js.str.inj (isHexOf_iff.1 (Option.some.inj hroot)))).symm)
  rw [map_fst_fixedPath, hlen] at hfollow
  have hdepth := length_of_follow_fixedTree hfollow
  rw [hdepth] at hfollow
  obtain ⟨v, -, hv, hleaf⟩ :=
    exists_follow_fixedTree (H := H) leaves (lowBits index (fixedDepth leaves.length))
  rw [hfollow] at hleaf
  cases hleaf
  rw [Nat.mod_eq_of_lt (lowBits_lt index _)] at hv
  exact ⟨sibs, hsibs, hdepth, hv⟩

/-- **Fixed proofs are exact.**  The proof of every position is accepted against the root.  A leaf
that the root accepts lies in the padded layer at the position that the low bits of the index name,
and comes with as many siblings as the tree is deep, when neither it nor a leaf is the hash of a
node. -/
structure FixedMerkleExact (H : Host) (leaves : List Digest) : Prop where
  complete : ∀ (i : ℕ) (hi : i < leaves.length), ∃ root proof,
    fixedMerkleRoot H (leaves.map Digest.bytes) = some root ∧
      fixedMerkleProof H (leaves.map Digest.bytes) i = some proof ∧ proof.index = i ∧
      verifyFixedMerkleProof H (hexText root) leaves[i].bytes (num (.fin (proof.index : ℚ)))
        (.arr (proof.siblings.map .str)) = some true
  sound : ∀ (root : Bytes) (leaf : Digest) (index siblings : Js),
    fixedMerkleRoot H (leaves.map Digest.bytes) = some root →
    CollisionFree H.sha256 (fixedHashed H leaves leaf index siblings) →
    (∀ v ∈ leaf :: leaves,
      v ∉ nodeImages H.sha256 1 (fixedHashed H leaves leaf index siblings)) →
    verifyFixedMerkleProof H (hexText root) leaf.bytes index siblings = some true →
    ∃ sibs, siblings.iter = some sibs ∧ sibs.length = fixedDepth leaves.length ∧
      (paddedLeaves H leaves)[lowBits index (fixedDepth leaves.length)]? = some leaf

theorem complete_of_le {leaves : List Digest} (h : leaves.length ≤ 2 ^ 30) (i : ℕ)
    (hi : i < leaves.length) : ∃ root proof,
      fixedMerkleRoot H (leaves.map Digest.bytes) = some root ∧
        fixedMerkleProof H (leaves.map Digest.bytes) i = some proof ∧ proof.index = i ∧
        verifyFixedMerkleProof H (hexText root) leaves[i].bytes (num (.fin (proof.index : ℚ)))
          (.arr (proof.siblings.map .str)) = some true := by
  have hdepth : fixedDepth leaves.length ≤ 30 := Nat.clog_le_of_le_pow h
  have hle : leaves.length ≤ 2 ^ fixedDepth leaves.length := Nat.le_pow_clog one_lt_two _
  obtain ⟨idx, hidx⟩ : ∃ idx, (num (.fin (i : ℚ))).toInt32 = some idx := ⟨_, rfl⟩
  obtain ⟨proof, hproof, hindex, hverify⟩ := verify_fixedMerkleProof (H := H) h hi hidx
    (lowBits_natCast (hi.trans_le hle) (hdepth.trans (by decide)))
  refine ⟨_, proof, root_fixedTree h, hproof, hindex, ?_⟩
  rw [hindex]
  exact hverify

/-- Too many leaves have no root, so that no position has a proof against it. -/
theorem not_complete_of_gt {leaves : List Digest} (h : 2 ^ 30 < leaves.length) :
    ¬ FixedMerkleExact H leaves := by
  intro hexact
  obtain ⟨root, -, hroot, -⟩ := hexact.complete 0 (by omega)
  rw [fixedMerkleRoot_eq_none (by rwa [List.length_map])] at hroot
  cases hroot

/-- **The tree is exact if and only if it has `2 ^ 30` leaves at most.** -/
theorem fixedMerkle_exact_iff (H : Host) (leaves : List Digest) :
    FixedMerkleExact H leaves ↔ leaves.length ≤ 2 ^ 30 := by
  constructor
  · intro hexact
    by_contra hgt
    exact not_complete_of_gt (not_le.1 hgt) hexact
  · intro hle
    refine ⟨complete_of_le hle, fun root leaf index siblings hroot hS himage h => ?_⟩
    rw [eq_of_fixedMerkleRoot hroot] at h
    exact verifyFixedMerkleProof_sound hS himage h

/-- `2 ^ 30 + 1` leaves. -/
theorem fixedMerkle_not_exact :
    ¬ FixedMerkleExact sampleHost (List.replicate (2 ^ 30 + 1) (sampleDigest 1000)) :=
  not_complete_of_gt (by rw [List.length_replicate]; omega)

/-! ### Three leaves -/

/-- Three leaves; the fourth is padding. -/
def threeLeaves : List Digest := [sampleDigest 1000, sampleDigest 2000, sampleDigest 3000]

/-- The siblings of the third leaf. -/
def thirdSiblings : Js :=
  arr [hexText (EMPTY sampleHost 0).bytes,
    hexText (nodeHash sampleHost (sampleDigest 1000).bytes (sampleDigest 2000).bytes).bytes]

/-- The byte strings that are hashed. -/
def threeHashed : List Bytes :=
  let left := sampleHost.sha256 (samplePair 1000 2000)
  let right := sampleHost.sha256 (samplePair 3000 0)
  [emptyLeafPreimage, samplePair 1000 2000, samplePair 3000 0, 1 :: (left.bytes ++ right.bytes)]

theorem fixedHashed_threeLeaves : ∀ x ∈ fixedHashed sampleHost threeLeaves (sampleDigest 3000)
    (num (.fin 6)) thirdSiblings, x ∈ threeHashed := by
  rintro x (rfl | hx | ⟨sibs, p, hsibs, hp, hx⟩)
  · exact List.mem_cons_self
  · have hnodes : (fixedTree sampleHost threeLeaves).preimages sampleHost.sha256 1 ⊆
        {x | x ∈ threeHashed} := by
      rintro y (rfl | (rfl | hy | hy) | rfl | hy | hy)
      · exact .tail _ (.tail _ (.tail _ (.head _)))
      · exact .tail _ (.head _)
      · cases hy
      · cases hy
      · exact .tail _ (.tail _ (.head _))
      · cases hy
      · cases hy
    exact hnodes hx
  · cases hsibs
    have hpath : indexPath (num (.fin 6)) [hexText (EMPTY sampleHost 0).bytes,
          hexText (nodeHash sampleHost (sampleDigest 1000).bytes (sampleDigest 2000).bytes).bytes] =
        some [(true, (sampleHost.sha256 (samplePair 1000 2000)).bytes),
          (false, (EMPTY sampleHost 0).bytes)] := by
      decide
    cases hpath.symm.trans hp
    rcases hx with rfl | rfl | hx
    · exact .tail _ (.tail _ (.tail _ (.head _)))
    · exact .tail _ (.tail _ (.head _))
    · cases hx

/-- The third leaf is accepted at index 6, whose low bits are its own. -/
theorem fixedMerkle_exact_threeLeaves : ∃ sibs, thirdSiblings.iter = some sibs ∧
    sibs.length = fixedDepth threeLeaves.length ∧
    (paddedLeaves sampleHost threeLeaves)[lowBits (num (.fin 6)) (fixedDepth threeLeaves.length)]? =
      some (sampleDigest 3000) := by
  refine ((fixedMerkle_exact_iff sampleHost threeLeaves).2 (by decide)).sound _ _ (num (.fin 6))
    thirdSiblings (root_fixedTree (by decide)) ?_ ?_ (by decide +kernel)
  · intro x hx y hy he
    have hall : ∀ x ∈ threeHashed, ∀ y ∈ threeHashed,
        sampleHost.sha256 x = sampleHost.sha256 y → x = y := by decide
    exact hall x (fixedHashed_threeLeaves x hx) y (fixedHashed_threeLeaves y hy) he
  · rintro v hv ⟨x, hx, hhead, he⟩
    have hall : ∀ v ∈ sampleDigest 3000 :: threeLeaves, ∀ x ∈ threeHashed,
        x.head? = some 1 → v ≠ sampleHost.sha256 x := by decide
    exact hall v hv x (fixedHashed_threeLeaves x hx) hhead he

end XChainSdk
