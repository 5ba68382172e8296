import XChainSdk.Merkle.SmtSoundness

/-!
# The state root

* `fixedMerkleRoot`, `verifyFixedMerkleProof` : the fixed tree and its verifier, which checks
  neither the number of siblings nor the range of the index.
* `stateRoot` : the roots of the named sub-trees, in their slots.
* `LeafMap`, `LeafState` : maps of leaf texts, and a map for every sub-tree.
* `LeafState.tree` : the whole state as one tree: five sparse trees below three levels.
* `LeafState.follow_slot_leaf` : **the only leaves at the end of a key's path below a slot are
  those of that slot's sparse tree**, whatever the number of steps above it.
-/

namespace XChainSdk

open Hash Js HashTree

section Fixed

variable (H : Host)

/-- The loop of `nextPow2`, where `<<` shifts 32 bits; `none` is a loop that has not ended after so
many doublings. -/
def doublings (n : ℕ) : ℕ → ℤ → Option ℕ
  | k, p =>
    if p < n then
      match k with
      | 0 => none
      | k + 1 => doublings n k (Int.bmod (2 * p) (2 ^ 32))
    else some p.toNat

/-- `nextPow2`; `none` is a loop that never ends. -/
def nextPow2 (n : ℕ) : Option ℕ := doublings n 32 1

/-- One layer of the fixed tree from the layer below. -/
def nextLayer : List Bytes → List Bytes
  | a :: b :: rest => (nodeHash H a b).bytes :: nextLayer rest
  | rest => rest

/-- The layers up to a single node. -/
def foldLayers : ℕ → List Bytes → Bytes
  | k + 1, a :: b :: rest => foldLayers k (nextLayer H (a :: b :: rest))
  | _, layer => layer.headD []

/-- `fixedMerkleRoot` -/
def fixedMerkleRoot (leaves : List Bytes) : Option Bytes :=
  if leaves = [] then some (EMPTY H 0).bytes
  else (nextPow2 leaves.length).map fun width =>
    foldLayers H width (leaves ++ List.replicate (width - leaves.length) (EMPTY H 0).bytes)

/-- `STATE_SUBTREES` -/
def STATE_SUBTREES : List String :=
  ["balances_root", "stakes_root", "ownership_root", "tokens_root", "contract_state_root"]

/-- `stateRoot`: an absent sub-tree has the root of an empty one. -/
def stateRoot (subRoots : String → Option Digest) : Bytes :=
  -- five leaves have a root
  (fixedMerkleRoot H
    (STATE_SUBTREES.map fun name => ((subRoots name).getD (EMPTY H SMT_DEPTH)).bytes)).getD []

/-- `ToInt32` of an operand of `&` or `>>` next to a number; a big integer throws. -/
def Js.toInt32 : Js → Option ℤ
  | bigint _ => none
  | x => some <| match x.toNumber with
    | .fin q => Int.bmod (if q < 0 then -⌊-q⌋ else ⌊q⌋) (2 ^ 32)
    | _ => 0

/-- One step of `verifyFixedMerkleProof`: the node and the index left. -/
def fixedStep (acc : Bytes × Js) (sib : Js) : Option (Bytes × Js) := do
  let idx ← acc.2.toInt32
  let s ← sib.toBuf
  let node := if idx % 2 = 0 then nodeHash H acc.1 s else nodeHash H s acc.1
  return (node.bytes, num (.fin ((idx / 2 : ℤ) : ℚ)))

/-- `verifyFixedMerkleProof` -/
def verifyFixedMerkleProof (rootHex : Js) (leafBuf : Bytes) (index siblings : Js) :
    Option Bool := do
  let (node, _) ← (← siblings.iter).foldlM (fixedStep H) (leafBuf, index)
  return isHexOf rootHex node

end Fixed

/-! ### The path of an index -/

/-- The path that the siblings of index `n` spell, from the root down. -/
def fixedPath : ℕ → List Bytes → Path
  | _, [] => []
  | n, s :: sibs => fixedPath (n / 2) sibs ++ [(decide (n % 2 = 1), s)]

/-- The last `k` bits of `n`, most significant first. -/
def slotDirs (n : ℕ) : ℕ → List Bool
  | 0 => []
  | k + 1 => slotDirs (n / 2) k ++ [decide (n % 2 = 1)]

@[simp] theorem length_slotDirs (n k : ℕ) : (slotDirs n k).length = k := by
  induction k generalizing n with
  | zero => rfl
  | succ k ih => simp [slotDirs, ih]

theorem map_fst_fixedPath (n : ℕ) (sibs : List Bytes) :
    (fixedPath n sibs).map Prod.fst = slotDirs n sibs.length := by
  induction sibs generalizing n with
  | nil => rfl
  | cons s sibs ih => simp [fixedPath, slotDirs, ih]

/-- The path of an index that is given from the root down. -/
theorem fixedPath_reverse (n : ℕ) (sibs : List Bytes) :
    fixedPath n sibs.reverse = (slotDirs n sibs.length).zip sibs := by
  have hgen : ∀ (l : List Bytes) (n : ℕ), fixedPath n l = (slotDirs n l.length).zip l.reverse := by
    intro l
    induction l with
    | nil => intro n; rfl
    | cons s l ih =>
      intro n
      rw [fixedPath, ih, List.length_cons, slotDirs, List.reverse_cons,
        List.zip_append (by simp), List.zip_cons_cons, List.zip_nil_right]
  rw [hgen, List.length_reverse, List.reverse_reverse]

theorem toInt32_natCast {n : ℕ} (h : n < 2 ^ 31) : (num (.fin (n : ℚ))).toInt32 = some (n : ℤ) := by
  have hneg : ¬ ((n : ℚ) < 0) := not_lt.2 (Nat.cast_nonneg n)
  simp only [Js.toInt32, Js.toNumber, if_neg hneg, Option.some.injEq]
  rw [show (⌊(n : ℚ)⌋ : ℤ) = n from Int.floor_natCast n]
  refine Int.bmod_eq_of_le ?_ ?_ <;> omega

/-- The loop of `verifyFixedMerkleProof` climbs along the path of the index. -/
theorem foldlM_fixedStep {H : Host} {n : ℕ} (hn : n < 2 ^ 31) (leaf : Bytes) {sibs : List Js}
    {bufs : List Bytes} (h : sibs.mapM Js.toBuf = some bufs) :
    ∃ idx, sibs.foldlM (fixedStep H) (leaf, num (.fin (n : ℚ))) =
      some (climb H.sha256 1 leaf (fixedPath n bufs), idx) := by
  induction sibs generalizing n leaf bufs with
  | nil => cases h; exact ⟨_, rfl⟩
  | cons s sibs ih =>
    obtain ⟨b, bufs, hb, hbufs, rfl⟩ := List.forall₂_cons_left_iff.1 (Loop.mapM_eq_some_iff.1 h)
    have hstep : fixedStep H (leaf, num (.fin (n : ℚ))) s =
        some ((H.sha256 (pair 1 (decide (n % 2 = 1)) leaf b)).bytes,
          num (.fin ((n / 2 : ℕ) : ℚ))) := by
      have hdiv : (((n : ℤ) / 2 : ℤ) : ℚ) = ((n / 2 : ℕ) : ℚ) := by norm_cast
      simp only [fixedStep, toInt32_natCast hn, hb, Option.bind_eq_bind, Option.bind_some, hdiv,
        Option.pure_def, Option.some.injEq, Prod.mk.injEq, and_true]
      by_cases hodd : n % 2 = 1
      · rw [if_neg (by omega), pair, if_pos (by simpa using hodd)]
        rfl
      · rw [if_pos (by omega), pair, if_neg (by simpa using hodd)]
        rfl
    obtain ⟨idx, hrun⟩ := ih (n := n / 2) (by omega)
      (H.sha256 (pair 1 (decide (n % 2 = 1)) leaf b)).bytes (Loop.mapM_eq_some_iff.2 hbufs)
    refine ⟨idx, ?_⟩
    rw [List.foldlM_cons, hstep, Option.bind_eq_bind, Option.bind_some, hrun, fixedPath,
      climb_append]
    rfl

theorem mapM_toBuf_of_foldlM {H : Host} {sibs : List Js} {acc out : Bytes × Js}
    (h : sibs.foldlM (fixedStep H) acc = some out) : ∃ bufs, sibs.mapM Js.toBuf = some bufs := by
  induction sibs generalizing acc with
  | nil => exact ⟨[], rfl⟩
  | cons s sibs ih =>
    obtain ⟨acc', hstep, h⟩ := Option.bind_eq_some_iff.1 h
    obtain ⟨bufs, hbufs⟩ := ih h
    obtain ⟨idx, -, hstep⟩ := Option.bind_eq_some_iff.1 hstep
    obtain ⟨b, hb, -⟩ := Option.bind_eq_some_iff.1 hstep
    exact ⟨b :: bufs, by simp [List.mapM_cons, hb, hbufs]⟩

/-- What an accepted proof of a natural index consists of. -/
theorem verifyFixedMerkleProof_eq_true_iff {H : Host} {rootHex siblings : Js} {leaf : Bytes} {n : ℕ}
    (hn : n < 2 ^ 31) :
    verifyFixedMerkleProof H rootHex leaf (num (.fin (n : ℚ))) siblings = some true ↔
      ∃ sibs bufs, siblings.iter = some sibs ∧ sibs.mapM Js.toBuf = some bufs ∧
        rootHex = hexText (climb H.sha256 1 leaf (fixedPath n bufs)) := by
  constructor
  · intro h
    obtain ⟨sibs, hsibs, h⟩ := Option.bind_eq_some_iff.1 h
    obtain ⟨out, hout, h⟩ := Option.bind_eq_some_iff.1 h
    obtain ⟨bufs, hbufs⟩ := mapM_toBuf_of_foldlM hout
    obtain ⟨idx, hrun⟩ := foldlM_fixedStep (H := H) hn leaf hbufs
    cases hout.symm.trans hrun
    exact ⟨sibs, bufs, hsibs, hbufs, isHexOf_iff.1 (Option.some.inj h)⟩
  · rintro ⟨sibs, bufs, hsibs, hbufs, rfl⟩
    obtain ⟨idx, hrun⟩ := foldlM_fixedStep (H := H) hn leaf hbufs
    simp [verifyFixedMerkleProof, hsibs, hrun]

/-! ### The state as one tree -/

/-- A map from keys to the texts of their leaves. -/
structure LeafMap where
  entries : List (Digest × Bytes)
  nodup : (entries.map Prod.fst).Nodup

namespace LeafMap

variable (H : Host) (m : LeafMap)

/-- The text of the leaf at a key. -/
def get (key : Digest) : Option Bytes := m.entries.lookup key

/-- The sparse tree of the leaf hashes. -/
def tree : SparseMerkleTree where
  leaves := m.entries.map fun e => (e.1, leafHash H e.2)
  nodup := by simpa [List.map_map, Function.comp_def] using m.nodup

/-- The byte strings that are hashed for the leaves and the root. -/
def hashed : List Bytes := (m.entries.map fun e => 0 :: e.2) ++ (m.tree H).hashed H

theorem get_tree (key : Digest) : (m.tree H).get key = (m.get key).map (leafHash H) :=
  Loop.lookup_map_snd (leafHash H) m.entries key

/-- The preimage of the digest at the end of the path of a key. -/
def endPreimage (key : Digest) : Bytes := ((m.get key).map (0 :: ·)).getD emptyLeafPreimage

theorem endLeaf_eq (key : Digest) :
    (m.tree H).endLeaf H key = H.sha256 (m.endPreimage key) := by
  rw [SparseMerkleTree.endLeaf, get_tree, endPreimage]
  cases m.get key <;> rfl

theorem endPreimage_mem_hashed (key : Digest) : m.endPreimage key ∈ m.hashed H := by
  rw [endPreimage]
  cases hget : m.get key with
  | none => exact List.mem_append_right _ (emptyLeafPreimage_mem_hashed H _)
  | some x =>
    obtain ⟨l₁, l₂, hl, -⟩ := List.lookup_eq_some_iff.1 hget
    exact List.mem_append_left _ (List.mem_map.2 ⟨(key, x), by rw [hl]; simp, rfl⟩)

/-- A text at the end of the path of a key is a stored one. -/
theorem mem_entries_of_endPreimage {m : LeafMap} {key : Digest} {text : Bytes}
    (h : 0 :: text = m.endPreimage key) : (key, text) ∈ m.entries := by
  rw [endPreimage] at h
  cases hget : m.get key with
  | none =>
    rw [hget] at h
    exact absurd h (by simp [emptyLeafPreimage])
  | some y =>
    rw [hget] at h
    cases h
    obtain ⟨l₁, l₂, hl, -⟩ := List.lookup_eq_some_iff.1 hget
    rw [hl]
    simp

end LeafMap

/-- A leaf map for every named sub-tree. -/
abbrev LeafState := String → LeafMap

/-- The byte strings of the leaf domains: leaf texts and the empty leaf. -/
def leafDomain : Set Bytes := {x | x.head? ≠ some 1}

namespace LeafState

variable (H : Host) (σ : LeafState)

/-- The root that the state commits to. -/
def root : Bytes := stateRoot H fun name => some ((σ name).tree H |>.root H)

/-- The sparse tree in a slot, as a full tree. -/
def slotTree (slot : ℕ) : DigestTree :=
  match STATE_SUBTREES[slot]? with
  | some name => ((σ name).tree H).tree H
  | none => .leaf (EMPTY H 0)

/-- The state as one tree: eight slots below three levels. -/
def tree : DigestTree :=
  .node
    (.node (.node (σ.slotTree H 0) (σ.slotTree H 1)) (.node (σ.slotTree H 2) (σ.slotTree H 3)))
    (.node (.node (σ.slotTree H 4) (σ.slotTree H 5)) (.node (σ.slotTree H 6) (σ.slotTree H 7)))

/-- The byte strings of the nodes above the slots. -/
def topHashed : List Bytes :=
  let s := fun i => ((σ.slotTree H i).root H.sha256 1).bytes
  let n := fun a b => 1 :: (a ++ b)
  let r := fun a b => (nodeHash H a b).bytes
  [n (s 0) (s 1), n (s 2) (s 3), n (s 4) (s 5), n (s 6) (s 7),
    n (r (s 0) (s 1)) (r (s 2) (s 3)), n (r (s 4) (s 5)) (r (s 6) (s 7)),
    n (r (r (s 0) (s 1)) (r (s 2) (s 3))) (r (r (s 4) (s 5)) (r (s 6) (s 7)))]

/-- The byte strings that are hashed for the leaves and the root of the state. -/
def hashed : List Bytes :=
  STATE_SUBTREES.flatMap (fun name => (σ name).hashed H) ++ σ.topHashed H

theorem slotTree_of_getElem? {slot : ℕ} {name : String} (h : STATE_SUBTREES[slot]? = some name) :
    σ.slotTree H slot = ((σ name).tree H).tree H := by
  rw [slotTree, h]

theorem slotTree_of_none {slot : ℕ} (h : STATE_SUBTREES[slot]? = none) :
    σ.slotTree H slot = .leaf (EMPTY H 0) := by
  rw [slotTree, h]

theorem root_slotTree (slot : ℕ) {name : String} (h : STATE_SUBTREES[slot]? = some name) :
    (σ.slotTree H slot).root H.sha256 1 = ((σ name).tree H).root H := by
  rw [slotTree_of_getElem? H σ h, SparseMerkleTree.root_tree]

theorem root_tree : ((σ.tree H).root H.sha256 1).bytes = σ.root H := by
  have h0 := root_slotTree H σ 0 rfl
  have h1 := root_slotTree H σ 1 rfl
  have h2 := root_slotTree H σ 2 rfl
  have h3 := root_slotTree H σ 3 rfl
  have h4 := root_slotTree H σ 4 rfl
  have h5 : (σ.slotTree H 5).root H.sha256 1 = EMPTY H 0 := rfl
  have h6 : (σ.slotTree H 6).root H.sha256 1 = EMPTY H 0 := rfl
  have h7 : (σ.slotTree H 7).root H.sha256 1 = EMPTY H 0 := rfl
  have hwidth : nextPow2 5 = some 8 := by decide
  simp only [tree, DigestTree.root, h0, h1, h2, h3, h4, h5, h6, h7]
  simp [root, stateRoot, fixedMerkleRoot, STATE_SUBTREES, hwidth, foldLayers, nextLayer, nodeHash,
    pair]

/-- A slot holds a sparse tree or the padding. -/
theorem preimages_slotTree_subset (slot : ℕ) :
    (σ.slotTree H slot).preimages H.sha256 1 ⊆ {x | x ∈ σ.hashed H} := by
  rw [slotTree]
  cases hname : STATE_SUBTREES[slot]? with
  | none => exact Set.empty_subset _
  | some name =>
    refine (SparseMerkleTree.preimages_tree H _).trans fun x hx => ?_
    refine List.mem_append_left _ (List.mem_flatMap.2 ⟨name, List.mem_of_getElem? hname, ?_⟩)
    exact List.mem_append_right _ hx

theorem preimages_tree : (σ.tree H).preimages H.sha256 1 ⊆ {x | x ∈ σ.hashed H} := by
  have hslot := preimages_slotTree_subset H σ
  have htop : ∀ x ∈ σ.topHashed H, x ∈ {x | x ∈ σ.hashed H} := fun x hx =>
    List.mem_append_right _ hx
  refine Set.insert_subset (htop _ ?_) (Set.union_subset
    (Set.insert_subset (htop _ ?_) (Set.union_subset
      (Set.insert_subset (htop _ ?_) (Set.union_subset (hslot 0) (hslot 1)))
      (Set.insert_subset (htop _ ?_) (Set.union_subset (hslot 2) (hslot 3)))))
    (Set.insert_subset (htop _ ?_) (Set.union_subset
      (Set.insert_subset (htop _ ?_) (Set.union_subset (hslot 4) (hslot 5)))
      (Set.insert_subset (htop _ ?_) (Set.union_subset (hslot 6) (hslot 7))))))
  all_goals
    simp only [topHashed, DigestTree.root, nodeHash, pair, List.mem_cons, true_or, or_true,
      Bool.false_eq_true, if_false]

theorem leavesFrom_slotTree (slot : ℕ) : (σ.slotTree H slot).LeavesFrom H.sha256
    (leafDomain ∩ {x | x ∈ σ.hashed H}) := by
  have hempty : emptyLeafPreimage ∈ leafDomain ∩ {x | x ∈ σ.hashed H} := by
    refine ⟨by simp [leafDomain, emptyLeafPreimage], List.mem_append_left _ (List.mem_flatMap.2
      ⟨"balances_root", .head _, ?_⟩)⟩
    exact List.mem_append_right _ (emptyLeafPreimage_mem_hashed H _)
  rw [slotTree]
  cases hname : STATE_SUBTREES[slot]? with
  | none => exact ⟨_, hempty, rfl⟩
  | some name =>
    refine SparseMerkleTree.leavesFrom_tree H _ hempty fun e he => ?_
    obtain ⟨x, hx, rfl⟩ := List.mem_map.1 he
    refine ⟨0 :: x.2, ⟨by simp [leafDomain], ?_⟩, rfl⟩
    refine List.mem_append_left _ (List.mem_flatMap.2 ⟨name, List.mem_of_getElem? hname, ?_⟩)
    exact List.mem_append_left _ (List.mem_map.2 ⟨x, hx, rfl⟩)

theorem leavesFrom_tree : (σ.tree H).LeavesFrom H.sha256 (leafDomain ∩ {x | x ∈ σ.hashed H}) := by
  have hslot := leavesFrom_slotTree H σ
  exact ⟨⟨⟨hslot 0, hslot 1⟩, hslot 2, hslot 3⟩, ⟨hslot 4, hslot 5⟩, hslot 6, hslot 7⟩

theorem follow_slotDirs {slot : ℕ} (h : slot < 8) :
    (σ.tree H).follow (slotDirs slot 3) = some (σ.slotTree H slot) := by
  interval_cases slot <;> rfl

/-- Leaves lie at the bottom of a sparse tree or in the padding of the slots. -/
theorem length_of_follow_leaf {ds : List Bool} {v : Digest}
    (h : (σ.tree H).follow ds = some (.leaf v)) : ds.length = 3 ∨ ds.length = 3 + SMT_DEPTH := by
  have hslot : ∀ slot rest, (σ.slotTree H slot).follow rest = some (.leaf v) →
      rest.length = 0 ∨ rest.length = SMT_DEPTH := by
    intro slot rest hrest
    rw [slotTree] at hrest
    cases hname : STATE_SUBTREES[slot]? with
    | none =>
      rw [hname] at hrest
      cases rest with
      | nil => exact .inl rfl
      | cons d rest => cases hrest
    | some name =>
      rw [hname] at hrest
      exact .inr (SparseMerkleTree.length_of_follow H _ hrest)
  obtain _ | ⟨a, _ | ⟨b, _ | ⟨c, rest⟩⟩⟩ := ds
  · cases h
  · cases a <;> cases h
  · cases a <;> cases b <;> cases h
  · have hrest : rest.length = 0 ∨ rest.length = SMT_DEPTH := by
      have hdirs : a :: b :: c :: rest =
          slotDirs (4 * a.toNat + 2 * b.toNat + c.toNat) 3 ++ rest := by
        cases a <;> cases b <;> cases c <;> rfl
      have hlt : 4 * a.toNat + 2 * b.toNat + c.toNat < 8 := by
        cases a <;> cases b <;> cases c <;> decide
      rw [hdirs, DigestTree.follow_append (follow_slotDirs H σ hlt)] at h
      exact hslot _ rest h
    simp only [List.length_cons]
    omega

/-- **Below a slot, a key's path ends only at that slot's own leaf**, however many steps the path
has above it. -/
theorem follow_slot_leaf {slot k : ℕ} {name : String} (hname : STATE_SUBTREES[slot]? = some name)
    {key v : Digest} (h : (σ.tree H).follow (slotDirs slot k ++ keyBits key) = some (.leaf v)) :
    v = H.sha256 ((σ name).endPreimage key) := by
  have hslot : slot < 8 :=
    (List.getElem?_eq_some_iff.1 hname).1.trans_le (show STATE_SUBTREES.length ≤ 8 by decide)
  have hk : k = 3 := by
    have hlen := length_of_follow_leaf H σ h
    simp only [List.length_append, length_slotDirs, length_keyPath, SMT_DEPTH] at hlen
    omega
  subst hk
  rw [DigestTree.follow_append (follow_slotDirs H σ hslot), slotTree_of_getElem? H σ hname,
    SparseMerkleTree.follow_keyBits] at h
  cases h
  exact LeafMap.endLeaf_eq H _ key

end LeafState

/-! ### Sample states -/

/-- The children of the seven nodes above eight slots with the numbers `v`. -/
def topPairs (v : ℕ → ℕ) : List (ℕ × ℕ) :=
  let n := fun a b => sampleNode a b
  [(v 0, v 1), (v 2, v 3), (v 4, v 5), (v 6, v 7), (n (v 0) (v 1), n (v 2) (v 3)),
    (n (v 4) (v 5), n (v 6) (v 7)),
    (n (n (v 0) (v 1)) (n (v 2) (v 3)), n (n (v 4) (v 5)) (n (v 6) (v 7)))]

/-- The nodes above the slots read back when their numbers do. -/
theorem readsBack_topHashed {σ : LeafState} {L : Ledger} {v : ℕ → ℕ}
    (hroot : ∀ slot < 8,
      (σ.slotTree sampleHost slot).root sampleHost.sha256 1 = sampleDigest (v slot))
    (hv : ∀ p ∈ topPairs v, p.1 < 2 ^ 32 ∧ p.2 < 2 ^ 32 ∧ ReadsBack L (samplePair p.1 p.2))
    {x : Bytes} (hx : x ∈ σ.topHashed sampleHost) : ReadsBack L x := by
  have hlist : σ.topHashed sampleHost = (topPairs v).map fun p => samplePair p.1 p.2 := by
    simp only [topPairs, List.mem_cons, List.not_mem_nil, or_false, forall_eq_or_imp,
      forall_eq] at hv
    obtain ⟨⟨h0, h1, -⟩, ⟨h2, h3, -⟩, ⟨h4, h5, -⟩, ⟨h6, h7, -⟩, ⟨h01, h23, -⟩, ⟨h45, h67, -⟩, -⟩ := hv
    simp only [LeafState.topHashed, hroot 0 (by decide), hroot 1 (by decide), hroot 2 (by decide),
      hroot 3 (by decide), hroot 4 (by decide), hroot 5 (by decide), hroot 6 (by decide),
      hroot 7 (by decide), nodeHash_sampleHost h0 h1, nodeHash_sampleHost h2 h3,
      nodeHash_sampleHost h4 h5, nodeHash_sampleHost h6 h7, nodeHash_sampleHost h01 h23,
      nodeHash_sampleHost h45 h67]
    rfl
  rw [hlist] at hx
  obtain ⟨p, hp, rfl⟩ := List.mem_map.1 hx
  exact (hv p hp).2.2

/-- A state with one sub-tree that is not empty. -/
def singleState (name : String) (m : LeafMap) : LeafState := fun n =>
  if n = name then m else ⟨[], List.nodup_nil⟩

/-- The number of a slot of such a state, given the number of its sub-tree. -/
def slotNumber (name : String) (r slot : ℕ) : ℕ :=
  match STATE_SUBTREES[slot]? with
  | some n => if n = name then r else 256
  | none => 0

section SingleState

variable {name : String} {m : LeafMap} {r : ℕ}
  (hr : (m.tree sampleHost).root sampleHost = sampleDigest r)
include hr

theorem root_singleState (slot : ℕ) :
    ((singleState name m).slotTree sampleHost slot).root sampleHost.sha256 1 =
      sampleDigest (slotNumber name r slot) := by
  have hempty : smtNode sampleHost 256 [] = sampleDigest 256 := EMPTY_sampleHost (by decide)
  rw [slotNumber]
  cases hslot : STATE_SUBTREES[slot]? with
  | none =>
    rw [LeafState.slotTree_of_none sampleHost _ hslot]
    exact EMPTY_sampleHost (h := 0) (by decide)
  | some n =>
    rw [LeafState.root_slotTree sampleHost _ slot hslot, singleState]
    by_cases hn : n = name
    · rw [if_pos hn, hr]
      simp [hn]
    · rw [if_neg hn]
      simp only [hn, if_false]
      exact hempty

/-- A state with one sub-tree reads back when its leaves, the nodes of the sub-tree and the nodes
above the slots do. -/
theorem readsBack_singleState {L : Ledger} (hsep : ∀ n ≤ 256, L.Separate n)
    (hentries : ∀ e ∈ m.entries, ReadsBack L (0 :: e.2))
    (hnodes : ∀ x ∈ smtNodeHashed sampleHost SMT_DEPTH (m.tree sampleHost).leaves, ReadsBack L x)
    (htop : ∀ p ∈ topPairs (slotNumber name r),
      p.1 < 2 ^ 32 ∧ p.2 < 2 ^ 32 ∧ ReadsBack L (samplePair p.1 p.2))
    {x : Bytes} (hx : x ∈ (singleState name m).hashed sampleHost) : ReadsBack L x := by
  rcases List.mem_append.1 hx with hx | hx
  · obtain ⟨n, -, hx⟩ := List.mem_flatMap.1 hx
    rcases List.mem_append.1 hx with hx | hx
    · obtain ⟨e, he, rfl⟩ := List.mem_map.1 hx
      rw [singleState] at he
      split_ifs at he
      · exact hentries e he
      · cases he
    · rcases List.mem_append.1 hx with hx | hx
      · exact readsBack_emptyHashed hsep hx
      · rw [singleState] at hx
        split_ifs at hx
        · exact hnodes x hx
        · cases hx
  · exact readsBack_topHashed (fun slot _ => root_singleState hr slot) htop hx

end SingleState

end XChainSdk
