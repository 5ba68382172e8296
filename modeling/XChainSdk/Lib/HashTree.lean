import XChainSdk.Lib.Bytes

/-!
# Binary hash trees and authentication paths

Trees of digests whose inner nodes hash `tag :: (left ++ right)`, and the fold of a path of
siblings that a verifier computes.  A tree is a finite object here, also when it has `2 ^ 256`
leaves; the code's sparse constructions compute the roots of such trees.

* `DigestTree.root`, `DigestTree.follow` : the root digest, and the subtree at the end of a path.
* `climb b p` : the digest a verifier computes from the bytes `b` and the path `p`, listed from
  the root down.
* `climb_eq_root` : **a path that climbs to the root follows the tree**, as long as the tree goes.
* `follow_eq_leaf_of_notMem`, `follow_eq_leaf` : when the leaves and the climbed digest are no hashes
  of nodes, the path ends at a leaf: it neither stops early nor runs on.
* `ofFn`, `sparseLeaf` : full trees, and the full tree that a list of keyed entries stands for.
* `climb_siblings` : the siblings along a path climb to the root.
* `climb_regrouped` : so do bytes of another length that group into the same node.
-/

namespace HashTree

open Hash

/-- Trees with digests at the leaves. -/
inductive DigestTree where
  | leaf (v : Digest)
  | node (l r : DigestTree)

/-- Steps from the root down: the direction (`true` is right) and the sibling. -/
abbrev Path := List (Bool × Bytes)

namespace DigestTree

/-- The child in a direction. -/
def child (l r : DigestTree) (d : Bool) : DigestTree := if d then r else l

/-- The subtree at the end of a path of directions. -/
def follow : DigestTree → List Bool → Option DigestTree
  | T, [] => some T
  | leaf _, _ :: _ => none
  | node l r, d :: ds => (child l r d).follow ds

@[simp] theorem follow_nil (T : DigestTree) : T.follow [] = some T := by cases T <;> rfl

@[simp] theorem follow_leaf_cons (v : Digest) (d : Bool) (ds : List Bool) :
    (leaf v).follow (d :: ds) = none := rfl

@[simp] theorem follow_node_cons (l r : DigestTree) (d : Bool) (ds : List Bool) :
    (node l r).follow (d :: ds) = (child l r d).follow ds := rfl

theorem follow_append {T : DigestTree} {ds : List Bool} {U : DigestTree} (h : T.follow ds = some U)
    (es : List Bool) : T.follow (ds ++ es) = U.follow es := by
  induction ds generalizing T with
  | nil => rw [follow_nil] at h; cases h; rfl
  | cons d ds ih =>
    cases T with
    | leaf v => cases h
    | node l r => exact ih h

/-- The last step of a path goes to a child of a node. -/
theorem exists_node_of_follow_concat {T U : DigestTree} {ds : List Bool} {d : Bool}
    (h : T.follow (ds ++ [d]) = some U) :
    ∃ l r, T.follow ds = some (node l r) ∧ U = child l r d := by
  induction ds generalizing T with
  | nil =>
    cases T with
    | leaf v => cases h
    | node l r =>
      rw [List.nil_append, follow_node_cons, follow_nil] at h
      exact ⟨l, r, follow_nil _, (Option.some.inj h).symm⟩
  | cons e ds ih =>
    cases T with
    | leaf v => cases h
    | node l r => exact ih h

/-- Every leaf is the hash of a byte string of `P`. -/
def LeavesFrom (H : Bytes → Digest) (P : Set Bytes) : DigestTree → Prop
  | leaf v => ∃ x ∈ P, v = H x
  | node l r => LeavesFrom H P l ∧ LeavesFrom H P r

theorem LeavesFrom.mono {H : Bytes → Digest} {P Q : Set Bytes} {T : DigestTree}
    (hT : T.LeavesFrom H P) (hPQ : P ⊆ Q) : T.LeavesFrom H Q := by
  induction T with
  | leaf v =>
    obtain ⟨x, hx, rfl⟩ := hT
    exact ⟨x, hPQ hx, rfl⟩
  | node l r ihl ihr => exact ⟨ihl hT.1, ihr hT.2⟩

theorem LeavesFrom.follow {H : Bytes → Digest} {P : Set Bytes} {T U : DigestTree} {ds : List Bool}
    (hT : T.LeavesFrom H P) (h : T.follow ds = some U) : U.LeavesFrom H P := by
  induction ds generalizing T with
  | nil => rw [follow_nil] at h; cases h; exact hT
  | cons d ds ih =>
    cases T with
    | leaf v => cases h
    | node l r => cases d with
      | false => exact ih hT.1 h
      | true => exact ih hT.2 h

end DigestTree

open DigestTree

section Climb

variable (H : Bytes → Digest) (tag : UInt8)

/-- The preimage of a node: `x` on the side of the direction, `s` on the other. -/
def pair (d : Bool) (x s : Bytes) : Bytes := tag :: if d then s ++ x else x ++ s

/-- The root digest. -/
def DigestTree.root : DigestTree → Digest
  | leaf v => v
  | node l r => H (pair tag false l.root.bytes r.root.bytes)

/-- The byte strings that `root` hashes. -/
def DigestTree.preimages : DigestTree → Set Bytes
  | leaf _ => ∅
  | node l r => insert (pair tag false (l.root H tag).bytes (r.root H tag).bytes)
      (l.preimages ∪ r.preimages)

/-- The bytes that a verifier computes from `b` and a path. -/
def climb (b : Bytes) : Path → Bytes
  | [] => b
  | (d, s) :: p => (H (pair tag d (climb b p) s)).bytes

/-- The byte strings that `climb` hashes. -/
def climbPreimages (b : Bytes) : Path → Set Bytes
  | [] => ∅
  | (d, s) :: p => insert (pair tag d (climb H tag b p) s) (climbPreimages b p)

/-- The digests of the nodes among some byte strings. -/
def nodeImages (S : Set Bytes) : Set Digest := {v | ∃ x ∈ S, x.head? = some tag ∧ v = H x}

end Climb

variable {H : Bytes → Digest} {tag : UInt8}

@[simp] theorem head?_pair (d : Bool) (x s : Bytes) : (pair tag d x s).head? = some tag := rfl

theorem climb_append (b : Bytes) (p q : Path) :
    climb H tag b (p ++ q) = climb H tag (climb H tag b q) p := by
  induction p with
  | nil => rfl
  | cons e p ih => obtain ⟨d, s⟩ := e; simp only [List.cons_append, climb, ih]

theorem climbPreimages_append (b : Bytes) (p q : Path) :
    climbPreimages H tag b (p ++ q) =
      climbPreimages H tag (climb H tag b q) p ∪ climbPreimages H tag b q := by
  induction p with
  | nil => exact (Set.empty_union _).symm
  | cons e p ih =>
    obtain ⟨d, s⟩ := e
    simp only [List.cons_append, climbPreimages, climb_append, ih, Set.insert_union]

theorem length_climb {b : Bytes} (hb : b.length = 32) (p : Path) :
    (climb H tag b p).length = 32 := by
  cases p with
  | nil => exact hb
  | cons e p => exact Digest.length_bytes _

/-- A node has one pair of children of 32 bytes. -/
theorem pair_eq_pair {d : Bool} {x s a b : Bytes} (hx : x.length = 32) (ha : a.length = 32)
    (hb : b.length = 32) (h : pair tag d x s = pair tag false a b) :
    x = (if d then b else a) ∧ s = (if d then a else b) := by
  have h' := (List.cons.inj h).2
  cases d with
  | false => exact append_inj_of_length h' (.inl hx) ha hb
  | true => exact (append_inj_of_length h' (.inr hx) ha hb).symm

theorem pair_child (l r : DigestTree) (d : Bool) :
    pair tag d ((child l r d).root H tag).bytes ((child l r !d).root H tag).bytes =
      pair tag false (l.root H tag).bytes (r.root H tag).bytes := by
  cases d <;> rfl

theorem preimages_child_subset (l r : DigestTree) (d : Bool) :
    (child l r d).preimages H tag ⊆ (node l r).preimages H tag := by
  cases d with
  | false => exact fun x hx => .inr (.inl hx)
  | true => exact fun x hx => .inr (.inr hx)

theorem preimages_follow_subset {T U : DigestTree} {ds : List Bool} (h : T.follow ds = some U) :
    U.preimages H tag ⊆ T.preimages H tag := by
  induction ds generalizing T with
  | nil => rw [follow_nil] at h; cases h; exact subset_rfl
  | cons d ds ih =>
    cases T with
    | leaf v => cases h
    | node l r => exact (ih h).trans (preimages_child_subset l r d)

section Soundness

variable {S : Set Bytes} (hS : CollisionFree H S)
include hS

/-- **A path that climbs to the root follows the tree**: it ends at the subtree that the climbed
bytes are the root of, or it meets a leaf on the way and goes on above it. -/
theorem climb_eq_root {T : DigestTree} {b : Bytes} {p : Path} (hT : T.preimages H tag ⊆ S)
    (hp : climbPreimages H tag b p ⊆ S) (hb : b.length = 32)
    (h : climb H tag b p = (T.root H tag).bytes) :
    (∃ U, T.follow (p.map Prod.fst) = some U ∧ b = (U.root H tag).bytes) ∨
      ∃ q e r v, p = q ++ e :: r ∧ T.follow (q.map Prod.fst) = some (leaf v) ∧
        climb H tag b (e :: r) = v.bytes := by
  induction p generalizing T with
  | nil => exact .inl ⟨T, by simp, h⟩
  | cons e p ih =>
    obtain ⟨d, s⟩ := e
    cases T with
    | leaf v => exact .inr ⟨[], (d, s), p, v, rfl, by simp, h⟩
    | node l r =>
      have hin : pair tag d (climb H tag b p) s =
          pair tag false (l.root H tag).bytes (r.root H tag).bytes :=
        hS (hp (.inl rfl)) (hT (.inl rfl)) (Digest.ext h)
      have hchild : climb H tag b p = ((child l r d).root H tag).bytes := by
        rw [(pair_eq_pair (length_climb hb p) (by simp) (by simp) hin).1]
        cases d <;> rfl
      rcases ih ((preimages_child_subset l r d).trans hT) (fun x hx => hp (.inr hx)) hchild with
        hU | ⟨q, e, r', v, rfl, hq, hv⟩
      · exact .inl hU
      · exact .inr ⟨(d, s) :: q, e, r', v, rfl, hq, hv⟩

/-- **A path ends at a leaf** when neither the leaves nor the climbed digest are hashes of nodes: it
neither stops at an inner node nor runs on below a leaf. -/
theorem follow_eq_leaf_of_notMem {T : DigestTree} {v : Digest} {p : Path}
    (hT : T.preimages H tag ⊆ S)
    (hleaves : ∀ ds w, T.follow ds = some (leaf w) → w ∉ nodeImages H tag S)
    (hv : v ∉ nodeImages H tag S) (hp : climbPreimages H tag v.bytes p ⊆ S)
    (h : climb H tag v.bytes p = (T.root H tag).bytes) :
    T.follow (p.map Prod.fst) = some (leaf v) := by
  rcases climb_eq_root hS hT hp (by simp) h with ⟨U, hU, hroot⟩ | ⟨q, ⟨d, s⟩, r, w, rfl, hq, hw⟩
  · have hroot : v = U.root H tag := Digest.ext hroot
    cases U with
    | leaf w => rw [hU, hroot]; rfl
    | node l r => exact absurd ⟨_, (preimages_follow_subset hU).trans hT (.inl rfl), rfl, hroot⟩ hv
  · -- the digest of the leaf is that of the node that the path has above it
    refine absurd ⟨_, hp ?_, head?_pair d _ s, (Digest.ext hw).symm⟩ (hleaves _ _ hq)
    rw [climbPreimages_append]
    exact .inr (.inl rfl)

/-- The hash of a byte string that does not start with the tag is no hash of a node. -/
theorem notMem_nodeImages {P : Set Bytes} (hP : P ⊆ S) (htag : ∀ x ∈ P, x.head? ≠ some tag)
    {x : Bytes} (hx : x ∈ P) : H x ∉ nodeImages H tag S := by
  rintro ⟨y, hy, hhead, he⟩
  rw [← hS (hP hx) hy he] at hhead
  exact htag x hx hhead

/-- A path ends at a leaf when the leaves and the climbed bytes are hashes of byte strings that do
not start with the tag. -/
theorem follow_eq_leaf {T : DigestTree} {P : Set Bytes} {y : Bytes} {p : Path}
    (hT : T.preimages H tag ⊆ S) (hP : P ⊆ S) (htag : ∀ x ∈ P, x.head? ≠ some tag)
    (hleaves : T.LeavesFrom H P) (hy : y ∈ P) (hp : climbPreimages H tag (H y).bytes p ⊆ S)
    (h : climb H tag (H y).bytes p = (T.root H tag).bytes) :
    T.follow (p.map Prod.fst) = some (leaf (H y)) := by
  refine follow_eq_leaf_of_notMem hS hT ?_ (notMem_nodeImages hS hP htag hy) hp h
  intro ds w hw
  obtain ⟨x, hx, rfl⟩ := hleaves.follow hw
  exact notMem_nodeImages hS hP htag hx

/-- Climbed bytes of any length group with their sibling into an inner node of the tree. -/
theorem node_of_climb_eq_root {T : DigestTree} {P : Set Bytes} {b s : Bytes} {d : Bool} {p : Path}
    (hT : T.preimages H tag ⊆ S) (hP : P ⊆ S) (htag : ∀ x ∈ P, x.head? ≠ some tag)
    (hleaves : T.LeavesFrom H P) (hp : climbPreimages H tag b (p ++ [(d, s)]) ⊆ S)
    (h : climb H tag b (p ++ [(d, s)]) = (T.root H tag).bytes) :
    ∃ l r, T.follow (p.map Prod.fst) = some (node l r) ∧
      pair tag d b s = pair tag false (l.root H tag).bytes (r.root H tag).bytes := by
  rw [climb_append] at h
  rw [climbPreimages_append] at hp
  have hb : pair tag d b s ∈ S := hp (.inr (.inl rfl))
  have hnot : ∀ {v : Digest}, (∃ x ∈ P, v = H x) → ∀ {d' x' s'}, pair tag d' x' s' ∈ S →
      H (pair tag d' x' s') ≠ v := by
    rintro v ⟨x, hx, rfl⟩ d' x' s' hin he
    exact absurd (by rw [← hS hin (hP hx) he]; rfl) (htag x hx)
  rcases climb_eq_root hS hT (fun x hx => hp (.inl hx)) (Digest.length_bytes _) h with
    ⟨U, hU, hroot⟩ | ⟨q, ⟨d', s'⟩, r, v, rfl, hq, hv⟩
  · have hroot : H (pair tag d b s) = U.root H tag := Digest.ext hroot
    cases U with
    | leaf v => exact absurd hroot (hnot (hleaves.follow hU) hb)
    | node l r =>
      exact ⟨l, r, hU, hS hb ((preimages_follow_subset hU).trans hT (.inl rfl)) hroot⟩
  · refine absurd (Digest.ext hv) (hnot (hleaves.follow hq) (hp (.inl ?_)))
    rw [climbPreimages_append]
    exact .inr (.inl rfl)

end Soundness

/-! ### Siblings -/

section Siblings

variable (H tag)

/-- The sibling roots along a path, from the root down. -/
def DigestTree.siblings : DigestTree → List Bool → List Digest
  | _, [] => []
  | leaf _, _ :: _ => []
  | node l r, d :: ds => (child l r !d).root H tag :: (child l r d).siblings ds

end Siblings

/-- The siblings along a path climb to the root. -/
theorem climb_siblings {T U : DigestTree} {ds : List Bool} (h : T.follow ds = some U) :
    climb H tag (U.root H tag).bytes (ds.zip ((T.siblings H tag ds).map Digest.bytes)) =
      (T.root H tag).bytes := by
  induction ds generalizing T with
  | nil => rw [follow_nil] at h; cases h; rfl
  | cons d ds ih =>
    cases T with
    | leaf v => cases h
    | node l r =>
      rw [follow_node_cons] at h
      simp only [DigestTree.siblings, List.map_cons, List.zip_cons_cons, climb, ih h, pair_child]
      rfl

/-- The climb along the siblings hashes nothing but nodes of the tree. -/
theorem climbPreimages_siblings_subset {T U : DigestTree} {ds : List Bool}
    (h : T.follow ds = some U) :
    climbPreimages H tag (U.root H tag).bytes
      (ds.zip ((T.siblings H tag ds).map Digest.bytes)) ⊆ T.preimages H tag := by
  induction ds generalizing T with
  | nil => exact Set.empty_subset _
  | cons d ds ih =>
    cases T with
    | leaf v => cases h
    | node l r =>
      rw [follow_node_cons] at h
      simp only [DigestTree.siblings, List.map_cons, List.zip_cons_cons, climbPreimages,
        climb_siblings h, pair_child]
      exact Set.insert_subset (.inl rfl) ((ih h).trans (preimages_child_subset l r d))

/-- Bytes that group with a sibling into a node of the tree climb to the root like its children, and
hash nothing new. -/
theorem climb_regrouped {T l r : DigestTree} {ds : List Bool} (h : T.follow ds = some (node l r))
    {b s : Bytes} {d : Bool}
    (hpair : pair tag d b s = pair tag false (l.root H tag).bytes (r.root H tag).bytes) :
    climb H tag b (ds.zip ((T.siblings H tag ds).map Digest.bytes) ++ [(d, s)]) =
        (T.root H tag).bytes ∧
      climbPreimages H tag b (ds.zip ((T.siblings H tag ds).map Digest.bytes) ++ [(d, s)]) ⊆
        T.preimages H tag := by
  have hlast : climb H tag b [(d, s)] = ((node l r).root H tag).bytes := by
    rw [climb, climb, hpair]
    rfl
  rw [climb_append, climbPreimages_append, hlast]
  refine ⟨climb_siblings h, Set.union_subset (climbPreimages_siblings_subset h) ?_⟩
  rw [climbPreimages, climb, climbPreimages, hpair]
  exact Set.insert_subset (preimages_follow_subset h (.inl rfl)) (Set.empty_subset _)

theorem length_siblings {T U : DigestTree} {ds : List Bool} (h : T.follow ds = some U) :
    (T.siblings H tag ds).length = ds.length := by
  induction ds generalizing T with
  | nil => rfl
  | cons d ds ih =>
    cases T with
    | leaf v => cases h
    | node l r => rw [DigestTree.siblings, List.length_cons, ih h, List.length_cons]

/-! ### Full trees -/

/-- The full tree of a height with a digest at the end of every path. -/
def ofFn : ℕ → (List Bool → Digest) → DigestTree
  | 0, f => leaf (f [])
  | h + 1, f => node (ofFn h fun ds => f (false :: ds)) (ofFn h fun ds => f (true :: ds))

theorem child_ofFn (h : ℕ) (f : List Bool → Digest) (d : Bool) :
    child (ofFn h fun ds => f (false :: ds)) (ofFn h fun ds => f (true :: ds)) d =
      ofFn h fun ds => f (d :: ds) := by
  cases d <;> rfl

theorem follow_ofFn {h : ℕ} (f : List Bool → Digest) {ds : List Bool} (hds : ds.length = h) :
    (ofFn h f).follow ds = some (leaf (f ds)) := by
  induction h generalizing f ds with
  | zero => rw [List.length_eq_zero_iff.1 hds]; rfl
  | succ h ih =>
    obtain ⟨d, ds, rfl⟩ := List.exists_cons_of_length_eq_add_one hds
    rw [ofFn, follow_node_cons, child_ofFn]
    exact ih _ (by simpa using hds)

/-- The leaves of a full tree all lie at its height. -/
theorem length_of_follow_ofFn {h : ℕ} {f : List Bool → Digest} {ds : List Bool} {v : Digest}
    (hv : (ofFn h f).follow ds = some (leaf v)) : ds.length = h := by
  induction h generalizing f ds with
  | zero =>
    cases ds with
    | nil => rfl
    | cons d ds => cases hv
  | succ h ih =>
    cases ds with
    | nil => cases hv
    | cons d ds =>
      rw [ofFn, follow_node_cons, child_ofFn] at hv
      rw [List.length_cons, ih hv]

theorem leavesFrom_ofFn {P : Set Bytes} {h : ℕ} {f : List Bool → Digest}
    (hf : ∀ ds, ∃ x ∈ P, f ds = H x) : (ofFn h f).LeavesFrom H P := by
  induction h generalizing f with
  | zero => exact hf []
  | succ h ih => exact ⟨ih fun ds => hf _, ih fun ds => hf _⟩

/-! ### Sparse trees -/

section Sparse

variable {κ : Type*} (bit : κ → ℕ → Bool) (e : Digest)

/-- Bits `d` to `d + h` of a key. -/
def keyPath (k : κ) (d h : ℕ) : List Bool := (List.range h).map fun i => bit k (d + i)

/-- The digest that a list of keyed entries has at the end of a path of height `h` below depth
`d`: that of the first entry whose key goes there, else the empty digest `e`. -/
def sparseLeaf (d h : ℕ) (es : List (κ × Digest)) (ds : List Bool) : Digest :=
  ((es.find? fun x => keyPath bit x.1 d h = ds).map Prod.snd).getD e

@[simp] theorem length_keyPath (k : κ) (d h : ℕ) : (keyPath bit k d h).length = h := by
  simp [keyPath]

theorem keyPath_succ (k : κ) (d h : ℕ) :
    keyPath bit k d (h + 1) = bit k d :: keyPath bit k (d + 1) h := by
  simp only [keyPath, List.range_succ_eq_map, List.map_cons, List.map_map, Nat.add_zero]
  congr 1
  exact List.map_congr_left fun i _ => by simp [Nat.add_comm, Nat.add_left_comm]

/-- The entries whose key goes in a direction at depth `d`. -/
def side (d : ℕ) (b : Bool) (es : List (κ × Digest)) : List (κ × Digest) :=
  es.filter fun x => bit x.1 d == b

/-- The subtree in a direction is the tree of the entries on that side. -/
theorem sparseLeaf_cons (d h : ℕ) (es : List (κ × Digest)) (b : Bool) (ds : List Bool) :
    sparseLeaf bit e d (h + 1) es (b :: ds) = sparseLeaf bit e (d + 1) h (side bit d b es) ds := by
  rw [sparseLeaf, sparseLeaf, side, List.find?_filter]
  congr 3
  funext x
  simp [keyPath_succ]

theorem ofFn_sparseLeaf_succ (d h : ℕ) (es : List (κ × Digest)) :
    ofFn (h + 1) (sparseLeaf bit e d (h + 1) es) =
      node (ofFn h (sparseLeaf bit e (d + 1) h (side bit d false es)))
        (ofFn h (sparseLeaf bit e (d + 1) h (side bit d true es))) := by
  simp only [ofFn, sparseLeaf_cons]

/-- At the end of its own path a key finds its own entry, when keys differ in their paths. -/
theorem sparseLeaf_keyPath [DecidableEq κ] {d h : ℕ}
    (hinj : Function.Injective fun k => keyPath bit k d h) (es : List (κ × Digest)) (k : κ) :
    sparseLeaf bit e d h es (keyPath bit k d h) = (es.lookup k).getD e := by
  rw [sparseLeaf]
  congr 1
  induction es with
  | nil => rfl
  | cons x es ih =>
    obtain ⟨j, v⟩ := x
    by_cases hj : j = k
    · subst hj; simp
    · have hpath : ¬ keyPath bit j d h = keyPath bit k d h := fun he => hj (hinj he)
      have hbeq : (k == j) = false := beq_false_of_ne (Ne.symm hj)
      simp only [List.find?_cons, decide_eq_false hpath, List.lookup_cons, hbeq, ih]

/-- The tree depends only on what the entries hold at each key. -/
theorem sparseLeaf_congr [DecidableEq κ] {d h : ℕ}
    (hinj : Function.Injective fun k => keyPath bit k d h) {es es' : List (κ × Digest)}
    (hes : ∀ k, es.lookup k = es'.lookup k) :
    sparseLeaf bit e d h es = sparseLeaf bit e d h es' := by
  funext ds
  by_cases hk : ∃ k, keyPath bit k d h = ds
  · obtain ⟨k, rfl⟩ := hk
    rw [sparseLeaf_keyPath bit e hinj, sparseLeaf_keyPath bit e hinj, hes]
  · have hnone : ∀ l : List (κ × Digest),
        (l.find? fun x => keyPath bit x.1 d h = ds) = none := fun l =>
      List.find?_eq_none.2 fun x _ hx => hk ⟨x.1, of_decide_eq_true hx⟩
    rw [sparseLeaf, sparseLeaf, hnone, hnone]

theorem sparseLeaf_mem {d h : ℕ} (es : List (κ × Digest)) (ds : List Bool) :
    sparseLeaf bit e d h es ds = e ∨ ∃ x ∈ es, sparseLeaf bit e d h es ds = x.2 := by
  rw [sparseLeaf]
  cases hfind : es.find? fun x => keyPath bit x.1 d h = ds with
  | none => exact .inl rfl
  | some x => exact .inr ⟨x, List.mem_of_find?_eq_some hfind, rfl⟩

end Sparse

end HashTree
