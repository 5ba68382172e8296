import Mathlib.Data.Nat.Log
import XChainSdk.Merkle.StateRoot

/-!
# The content root of a block

The rows of a block are hashed in a fixed order, and their leaves are the bottom of a fixed tree.

* `fixedTree` : the tree whose root `fixedMerkleRoot` computes of up to `2 ^ 30` leaves
  (`root_fixedTree`); more leaves have no root.
* `indexPath` : the path that any index and siblings stand for in `verifyFixedMerkleProof`.
* `BlockRows`, `blockMerkleLeaves` : the rows of a block and their leaves.
* `fixedMerkleProof_sound` : **an accepted proof of a leaf text shows that the text is committed**,
  whatever the index and however many siblings.
-/

namespace XChainSdk

open Hash Js HashTree

/-! ### Fixed trees -/

/-- One layer of trees from the layer below. -/
def pairTrees : List DigestTree → List DigestTree
  | a :: b :: rest => .node a b :: pairTrees rest
  | rest => rest

/-- The layers up to a single tree. -/
def foldTrees (empty : DigestTree) : ℕ → List DigestTree → DigestTree
  | k + 1, a :: b :: rest => foldTrees empty k (pairTrees (a :: b :: rest))
  | _, layer => layer.headD empty

/-- The layers above `n` leaves. -/
def fixedDepth (n : ℕ) : ℕ := Nat.clog 2 n

/-- The tree of a layer of leaves, with empty leaves up to a power of two. -/
def fixedTree (H : Host) (leaves : List Digest) : DigestTree :=
  let width := 2 ^ fixedDepth leaves.length
  foldTrees (.leaf (EMPTY H 0)) width
    (leaves.map .leaf ++ List.replicate (width - leaves.length) (.leaf (EMPTY H 0)))

section Fixed

variable {H : Host} {empty : DigestTree}

/-- The root of a tree as bytes. -/
def rootBytes (H : Host) (t : DigestTree) : Bytes := (t.root H.sha256 1).bytes

theorem map_rootBytes_pairTrees (ts : List DigestTree) :
    (pairTrees ts).map (rootBytes H) = nextLayer H (ts.map (rootBytes H)) := by
  induction ts using pairTrees.induct with
  | case1 a b rest ih =>
    rw [pairTrees, List.map_cons, ih]
    rfl
  | case2 rest h =>
    rcases rest with _ | ⟨a, _ | ⟨b, rest⟩⟩
    · rfl
    · rfl
    · exact absurd rfl (h a b rest)

theorem pairTrees_ne_nil {ts : List DigestTree} (h : ts ≠ []) : pairTrees ts ≠ [] := by
  rcases ts with _ | ⟨a, _ | ⟨b, rest⟩⟩
  · exact absurd rfl h
  · simp [pairTrees]
  · simp [pairTrees]

theorem root_foldTrees (k : ℕ) {ts : List DigestTree} (h : ts ≠ []) :
    rootBytes H (foldTrees empty k ts) = foldLayers H k (ts.map (rootBytes H)) := by
  induction k generalizing ts with
  | zero =>
    rcases ts with _ | ⟨a, rest⟩
    · exact absurd rfl h
    · rfl
  | succ k ih =>
    rcases ts with _ | ⟨a, _ | ⟨b, rest⟩⟩
    · exact absurd rfl h
    · rfl
    · have hlayer := map_rootBytes_pairTrees (H := H) (a :: b :: rest)
      rw [foldTrees, ih (pairTrees_ne_nil h), hlayer]
      rfl

/-- Every leaf of a layer is a leaf of one of its trees. -/
theorem leavesFrom_pairTrees {P : Set Bytes} {ts : List DigestTree}
    (h : ∀ t ∈ ts, t.LeavesFrom H.sha256 P) : ∀ t ∈ pairTrees ts, t.LeavesFrom H.sha256 P := by
  induction ts using pairTrees.induct with
  | case1 a b rest ih =>
    intro t ht
    rcases List.mem_cons.1 ht with rfl | ht
    · exact ⟨h a (by simp), h b (by simp)⟩
    · exact ih (fun t ht => h t (by simp [ht])) t ht
  | case2 rest hrest =>
    rw [pairTrees]
    · exact h
    · exact hrest

theorem leavesFrom_foldTrees {P : Set Bytes} (k : ℕ) {ts : List DigestTree}
    (hempty : empty.LeavesFrom H.sha256 P) (h : ∀ t ∈ ts, t.LeavesFrom H.sha256 P) :
    (foldTrees empty k ts).LeavesFrom H.sha256 P := by
  induction k generalizing ts with
  | zero =>
    rcases ts with _ | ⟨a, rest⟩
    · exact hempty
    · exact h a (by simp)
  | succ k ih =>
    rcases ts with _ | ⟨a, _ | ⟨b, rest⟩⟩
    · exact hempty
    · exact h a (by simp)
    · rw [foldTrees]
      exact ih (leavesFrom_pairTrees h)

/-! ### The width -/

/-- Below the sign bit a shift doubles. -/
theorem bmod_double {j : ℕ} (hj : j < 30) : Int.bmod (2 * 2 ^ j) (2 ^ 32) = 2 ^ (j + 1) := by
  have hpow : (2 : ℤ) ^ j ≤ 2 ^ 29 := pow_le_pow_right₀ (by norm_num) (by omega)
  have hpos : (0 : ℤ) < 2 ^ j := by positivity
  rw [Int.bmod_eq_of_le_mul_two (by omega) (by omega), pow_succ']

/-- The doublings stop at the first power of two that is large enough. -/
theorem doublings_pow {n k j : ℕ} (hj : j ≤ fixedDepth n) (hsmall : fixedDepth n ≤ 30)
    (hk : fixedDepth n ≤ j + k) : doublings n k (2 ^ j) = some (2 ^ fixedDepth n) := by
  have hcast (j : ℕ) : ((2 : ℤ) ^ j < n) ↔ 2 ^ j < n := by exact_mod_cast Iff.rfl
  have hstop {j : ℕ} (hj : j ≤ fixedDepth n) (hge : ¬ 2 ^ j < n) : j = fixedDepth n :=
    le_antisymm hj (Nat.clog_le_of_le_pow (not_lt.1 hge))
  have htop (j : ℕ) : ((2 : ℤ) ^ j).toNat = 2 ^ j := by exact_mod_cast Int.toNat_natCast (2 ^ j)
  induction k generalizing j with
  | zero =>
    obtain rfl : j = fixedDepth n := le_antisymm hj hk
    have hge : ¬ 2 ^ fixedDepth n < n := not_lt.2 (Nat.le_pow_clog one_lt_two n)
    rw [doublings, if_neg (mt (hcast _).1 hge), htop]
  | succ k ih =>
    rw [doublings]
    by_cases hlt : 2 ^ j < n
    · have hstep : j < fixedDepth n := (Nat.lt_clog_iff_pow_lt (by omega)).2 hlt
      rw [if_pos ((hcast j).2 hlt)]
      simp only [bmod_double (show j < 30 by omega)]
      exact ih hstep (by omega)
    · rw [if_neg (mt (hcast j).1 hlt), htop, hstop hj hlt]

theorem nextPow2_of_le {n : ℕ} (h : n ≤ 2 ^ 30) : nextPow2 n = some (2 ^ fixedDepth n) := by
  have hdepth : fixedDepth n ≤ 30 := Nat.clog_le_of_le_pow h
  exact doublings_pow (j := 0) (Nat.zero_le _) hdepth (by omega)

theorem lt_of_stuck {n : ℕ} (h : 2 ^ 30 < n) {p : ℤ}
    (hp : p = -2 ^ 31 ∨ p = 0 ∨ ∃ j ≤ 30, p = 2 ^ j) : p < n := by
  rcases hp with rfl | rfl | ⟨j, hj, rfl⟩
  · omega
  · omega
  · have hpow : (2 : ℤ) ^ j ≤ 2 ^ 30 := pow_le_pow_right₀ (by norm_num) hj
    omega

/-- Above `2 ^ 30` the sign bit is reached, then zero, and the loop goes on for ever. -/
theorem doublings_eq_none {n : ℕ} (h : 2 ^ 30 < n) (k : ℕ) {p : ℤ}
    (hp : p = -2 ^ 31 ∨ p = 0 ∨ ∃ j ≤ 30, p = 2 ^ j) : doublings n k p = none := by
  induction k generalizing p with
  | zero =>
    rw [doublings, if_pos (lt_of_stuck h hp)]
  | succ k ih =>
    rw [doublings, if_pos (lt_of_stuck h hp)]
    refine ih ?_
    rcases hp with rfl | rfl | ⟨j, hj, rfl⟩
    · exact .inr (.inl (by decide))
    · exact .inr (.inl (by decide))
    · rcases hj.eq_or_lt with rfl | hlt
      · exact .inl (by decide)
      · exact .inr (.inr ⟨j + 1, hlt, bmod_double hlt⟩)

theorem nextPow2_eq_none {n : ℕ} (h : 2 ^ 30 < n) : nextPow2 n = none :=
  doublings_eq_none h 32 (.inr (.inr ⟨0, by decide, rfl⟩))

theorem root_fixedTree {leaves : List Digest} (h : leaves.length ≤ 2 ^ 30) :
    fixedMerkleRoot H (leaves.map Digest.bytes) = some (rootBytes H (fixedTree H leaves)) := by
  rcases leaves with _ | ⟨d, leaves⟩
  · rfl
  · rw [fixedTree, fixedMerkleRoot, if_neg (by simp), List.length_map, nextPow2_of_le h,
      Option.map_some]
    rw [root_foldTrees _ (by simp), List.map_append, List.map_map, List.map_replicate]
    rfl

/-- More leaves have no root. -/
theorem fixedMerkleRoot_eq_none {leaves : List Bytes} (h : 2 ^ 30 < leaves.length) :
    fixedMerkleRoot H leaves = none := by
  have hne : leaves ≠ [] := by
    rintro rfl
    simp at h
  rw [fixedMerkleRoot, if_neg hne, nextPow2_eq_none h, Option.map_none]

theorem eq_of_fixedMerkleRoot {leaves : List Digest} {root : Bytes}
    (h : fixedMerkleRoot H (leaves.map Digest.bytes) = some root) :
    root = rootBytes H (fixedTree H leaves) := by
  rcases le_or_gt leaves.length (2 ^ 30) with hle | hgt
  · rw [root_fixedTree hle] at h
    exact (Option.some.inj h).symm
  · rw [fixedMerkleRoot_eq_none (by rwa [List.length_map])] at h
    cases h

theorem leavesFrom_fixedTree {P : Set Bytes} {leaves : List Digest}
    (hempty : emptyLeafPreimage ∈ P) (h : ∀ d ∈ leaves, ∃ x ∈ P, d = H.sha256 x) :
    (fixedTree H leaves).LeavesFrom H.sha256 P := by
  have hpad : (DigestTree.leaf (EMPTY H 0)).LeavesFrom H.sha256 P := ⟨_, hempty, rfl⟩
  refine leavesFrom_foldTrees _ hpad fun t ht => ?_
  rcases List.mem_append.1 ht with ht | ht
  · obtain ⟨d, hd, rfl⟩ := List.mem_map.1 ht
    exact h d hd
  · rw [List.eq_of_mem_replicate ht]
    exact hpad

/-! ### Proofs with any index -/

/-- The path of an index and its siblings, from the root down; the index may be any value. -/
def indexPath : Js → List Js → Option Path
  | _, [] => some []
  | index, sib :: sibs => do
    let idx ← index.toInt32
    let s ← sib.toBuf
    let p ← indexPath (num (.fin ((idx / 2 : ℤ) : ℚ))) sibs
    return p ++ [(decide (idx % 2 ≠ 0), s)]

/-- The byte strings that checking a fixed proof hashes above its leaf. -/
def fixedProofHashed (H : Host) (leaf : Bytes) (index siblings : Js) : Set Bytes :=
  {x | ∃ sibs p, siblings.iter = some sibs ∧ indexPath index sibs = some p ∧
    x ∈ climbPreimages H.sha256 1 leaf p}

theorem indexPath_of_foldlM {sibs : List Js} {leaf : Bytes} {index : Js} {out : Bytes × Js}
    (h : sibs.foldlM (fixedStep H) (leaf, index) = some out) :
    ∃ p, indexPath index sibs = some p ∧ out.1 = climb H.sha256 1 leaf p := by
  induction sibs generalizing leaf index with
  | nil =>
    cases h
    exact ⟨[], rfl, rfl⟩
  | cons sib sibs ih =>
    obtain ⟨acc, hstep, h⟩ := Option.bind_eq_some_iff.1 h
    obtain ⟨idx, hidx, hstep⟩ := Option.bind_eq_some_iff.1 hstep
    obtain ⟨s, hs, hstep⟩ := Option.bind_eq_some_iff.1 hstep
    cases hstep
    obtain ⟨p, hp, hout⟩ := ih h
    refine ⟨p ++ [(decide (idx % 2 ≠ 0), s)], ?_, ?_⟩
    · have hidx' : index.toInt32 = some idx := hidx
      rw [indexPath, hidx', hs]
      simp [hp]
    · rw [hout, climb_append]
      by_cases heven : idx % 2 = 0
      · simp [climb, pair, heven, nodeHash]
      · simp [climb, pair, heven, nodeHash]

/-- An accepted proof is a climb to the root. -/
theorem exists_path_of_verified {rootHex siblings index : Js} {leaf : Bytes}
    (h : verifyFixedMerkleProof H rootHex leaf index siblings = some true) :
    ∃ p, rootHex = hexText (climb H.sha256 1 leaf p) ∧
      climbPreimages H.sha256 1 leaf p ⊆ fixedProofHashed H leaf index siblings := by
  obtain ⟨sibs, hsibs, h⟩ := Option.bind_eq_some_iff.1 h
  obtain ⟨out, hout, h⟩ := Option.bind_eq_some_iff.1 h
  obtain ⟨p, hp, hclimb⟩ := indexPath_of_foldlM hout
  refine ⟨p, ?_, fun x hx => ⟨sibs, p, hsibs, hp, hx⟩⟩
  rw [← hclimb]
  exact isHexOf_iff.1 (Option.some.inj h)

/-- **An accepted proof of a leaf text shows that the text is committed**: its bytes with the leaf
prefix are those of a leaf of the tree. -/
theorem fixedMerkleProof_sound {texts : List Bytes} {text root : Bytes} {index siblings : Js}
    (hroot : fixedMerkleRoot H ((texts.map (leafHash H)).map Digest.bytes) = some root)
    (hS : CollisionFree H.sha256 ({x | x = emptyLeafPreimage ∨ x = 0 :: text ∨ ∃ t ∈ texts, x = 0 :: t} ∪
      (fixedTree H (texts.map (leafHash H))).preimages H.sha256 1 ∪
      fixedProofHashed H (leafHash H text).bytes index siblings))
    (h : verifyFixedMerkleProof H (hexText root) (leafHash H text).bytes index siblings =
      some true) : text ∈ texts := by
  obtain ⟨p, hclimbed, hpre⟩ := exists_path_of_verified h
  have hclimb : climb H.sha256 1 (H.sha256 (0 :: text)).bytes p =
      ((fixedTree H (texts.map (leafHash H))).root H.sha256 1).bytes := by
    have hbytes := eq_of_fixedMerkleRoot hroot
    rw [rootBytes] at hbytes
    rw [← hbytes]
    exact (toHex_injective (Js.str.inj hclimbed)).symm
  have hown : (fixedTree H (texts.map (leafHash H))).LeavesFrom H.sha256
      {x | x = emptyLeafPreimage ∨ ∃ t ∈ texts, x = 0 :: t} := by
    refine leavesFrom_fixedTree (.inl rfl) fun d hd => ?_
    obtain ⟨t, ht, rfl⟩ := List.mem_map.1 hd
    exact ⟨0 :: t, .inr ⟨t, ht, rfl⟩, rfl⟩
  have hleaves := hown.mono (Q := {x | x = emptyLeafPreimage ∨ x = 0 :: text ∨
    ∃ t ∈ texts, x = 0 :: t}) fun x hx => hx.imp id .inr
  have hfollow := follow_eq_leaf hS (fun x hx => .inl (.inr hx)) (fun x hx => .inl (.inl hx))
    (by rintro x (rfl | rfl | ⟨t, -, rfl⟩) <;> simp [emptyLeafPreimage]) hleaves (.inr (.inl rfl))
    (fun x hx => .inr (hpre hx)) hclimb
  -- the leaf at the end of the path is one of the tree's own
  obtain ⟨x, hx, hdigest⟩ := hown.follow hfollow
  have hxS : x = emptyLeafPreimage ∨ x = 0 :: text ∨ ∃ t ∈ texts, x = 0 :: t :=
    hx.imp id fun ht => .inr ht
  have hsame := hS (.inl (.inl (.inr (.inl rfl)))) (.inl (.inl hxS)) hdigest
  rcases hx with rfl | ⟨t, ht, rfl⟩
  · exact absurd hsame (by simp [emptyLeafPreimage])
  · rw [(List.cons.inj hsame).2]
    exact ht

end Fixed

/-! ### The rows of a block -/

/-- A row of credits, debits or escrows. -/
structure LedgerRow where
  actionIndex : ℕ
  address : Option String
  tick : Option String
  amount : String

/-- A row of actions. -/
structure ActionRow where
  actionIndex : ℕ
  txIndex : Option ℕ
  action : Option String

/-- A row of contracts. -/
structure ContractRow where
  actionIndex : ℕ
  sourceAddress : Option String
  codeHash : Option String
  status : Option String

/-- A row of contract state. -/
structure ContractStateRow where
  contractIndex : ℕ
  stateKey : Option String
  stateValue : Option String

/-- A row of contract executions. -/
structure ExecutionRow where
  actionIndex : ℕ
  contractIndex : ℕ
  callerAddress : Option String
  gasUsed : Option ℕ
  status : Option String
  emittedCount : Option ℕ

/-- A row of contract emissions. -/
structure EmissionRow where
  executionIndex : ℕ
  emittedAction : Option String
  actionIndex : ℕ
  position : ℕ

/-- A row of contract deposits or withdrawals. -/
structure MovementRow where
  actionIndex : ℕ
  contractIndex : ℕ
  sourceAddress : Option String
  tick : Option String
  amount : String
  status : Option String

/-- The rows of a block, each kind in its own order. -/
structure BlockRows where
  credits : List LedgerRow := []
  debits : List LedgerRow := []
  escrows : List LedgerRow := []
  actions : List ActionRow := []
  contracts : List ContractRow := []
  state : List ContractStateRow := []
  executions : List ExecutionRow := []
  emissions : List EmissionRow := []
  deposits : List MovementRow := []
  withdrawals : List MovementRow := []

/-- An absent field is hashed as the empty text. -/
def orEmpty (x : Option String) : String := x.getD ""

/-- The fields of `ledgerLeaf`. -/
def LedgerRow.fields (kind : String) (r : LedgerRow) : List String :=
  ["L", kind, natText r.actionIndex, orEmpty r.address, orEmpty r.tick, r.amount]

/-- The fields of `actionsLeaf`. -/
def ActionRow.fields (r : ActionRow) : List String :=
  ["A", natText r.actionIndex, orEmpty (r.txIndex.map natText), orEmpty r.action]

/-- The fields of `contractLeaf`. -/
def contractFields (subTable : String) (fields : List String) : List String :=
  ["C", subTable] ++ fields

def ContractRow.fields (r : ContractRow) : List String :=
  contractFields "contracts" [natText r.actionIndex, orEmpty r.sourceAddress, orEmpty r.codeHash,
    orEmpty r.status]

def ContractStateRow.fields (r : ContractStateRow) : List String :=
  contractFields "state" [natText r.contractIndex, orEmpty r.stateKey, orEmpty r.stateValue]

def ExecutionRow.fields (r : ExecutionRow) : List String :=
  contractFields "executions" [natText r.actionIndex, natText r.contractIndex,
    orEmpty r.callerAddress, orEmpty (r.gasUsed.map natText), orEmpty r.status,
    orEmpty (r.emittedCount.map natText)]

def EmissionRow.fields (r : EmissionRow) : List String :=
  contractFields "emissions" [natText r.executionIndex, orEmpty r.emittedAction,
    natText r.actionIndex, natText r.position]

def MovementRow.fields (subTable : String) (r : MovementRow) : List String :=
  contractFields subTable [natText r.actionIndex, natText r.contractIndex, orEmpty r.sourceAddress,
    orEmpty r.tick, r.amount, orEmpty r.status]

/-- The fields of every leaf, in the order in which they are committed. -/
def BlockRows.leafFields (rows : BlockRows) : List (List String) :=
  rows.credits.map (LedgerRow.fields "credit") ++ rows.debits.map (LedgerRow.fields "debit") ++
    rows.escrows.map (LedgerRow.fields "escrow") ++ rows.actions.map ActionRow.fields ++
    rows.contracts.map ContractRow.fields ++ rows.state.map ContractStateRow.fields ++
    rows.executions.map ExecutionRow.fields ++ rows.emissions.map EmissionRow.fields ++
    rows.deposits.map (MovementRow.fields "deposits") ++
    rows.withdrawals.map (MovementRow.fields "withdrawals")

/-- The texts that the leaves hash; a field with a zero byte throws. -/
def BlockRows.leafTexts (rows : BlockRows) : Option (List Bytes) := rows.leafFields.mapM joinFields

/-- `blockMerkleLeaves` -/
def blockMerkleLeaves (H : Host) (rows : BlockRows) : Option (List Digest) :=
  rows.leafTexts.map fun texts => texts.map (leafHash H)

/-- `blockMerkleRoot` -/
def blockMerkleRoot (H : Host) (orderedLeaves : List Digest) : Option Bytes :=
  fixedMerkleRoot H (orderedLeaves.map Digest.bytes)

/-- Fields of an action leaf are those of an action row. -/
theorem BlockRows.action_of_fields {rows : BlockRows} {fields : List String}
    (h : "A" :: fields ∈ rows.leafFields) : ∃ r ∈ rows.actions, r.fields = "A" :: fields := by
  simp only [leafFields, List.mem_append, List.mem_map, LedgerRow.fields, ContractRow.fields,
    ContractStateRow.fields, ExecutionRow.fields, EmissionRow.fields, MovementRow.fields,
    contractFields, List.cons_append, List.cons.injEq, String.reduceEq, false_and, and_false,
    exists_false, or_false, false_or] at h
  exact h

/-- The text of an action leaf belongs to an action row. -/
theorem BlockRows.action_of_text {rows : BlockRows} {texts : List Bytes} {fields : List String}
    {text : Bytes} (htexts : rows.leafTexts = some texts) (htext : joinFields ("A" :: fields) = some text)
    (h : text ∈ texts) : ∃ r ∈ rows.actions, r.fields = "A" :: fields := by
  have hall := Loop.mapM_eq_some_iff.1 htexts
  obtain ⟨fs, hfs, hjoin⟩ : ∃ fs ∈ rows.leafFields, joinFields fs = some text := by
    obtain ⟨i, hi, rfl⟩ := List.mem_iff_getElem.1 h
    have hlen := hall.length_eq
    exact ⟨rows.leafFields[i], List.getElem_mem _, List.Forall₂.get hall (hlen ▸ hi) hi⟩
  have hne : fs ≠ [] := by
    rintro rfl
    -- every leaf has a kind
    revert hfs
    simp [leafFields, LedgerRow.fields, ActionRow.fields, ContractRow.fields,
      ContractStateRow.fields, ExecutionRow.fields, EmissionRow.fields, MovementRow.fields,
      contractFields]
  rw [joinFields_inj hne (by simp) hjoin htext] at hfs
  exact action_of_fields hfs

end XChainSdk
