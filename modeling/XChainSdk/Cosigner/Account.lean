import XChainSdk.Cosigner.EnvelopeGrammar
import XChainSdk.Lib.Radix
import XChainSdk.Lib.XOnlyKeys

/-!
# Accounts

The account of an agent and a daemon is the output of their aggregate key.  With a third key for
recovery it is the output of this key under the tweak of a tree, and an envelope is committed to by
the output of the same key under the tweak of another tree.

* `KeyLibrary` : what the libraries make of keys.
* `deriveMuSig2P2TR2of3`, `setTapTree`, `setAccount` : how a co-signer derives its account.
* `TweakHashes` : the hashes that tweak a key are free of collisions.
* `tweaks_eq_of_output` : **the output of a key under its tweaks tells the tweaks**.
-/

namespace XChainSdk

open Hash

/-- The hash that tweaks a key to commit to a tree. -/
def tapTweak (B : Bitcoin) (internalXOnly merkleRoot : Bytes) : Bytes :=
  B.taggedHash "TapTweak" (internalXOnly ++ merkleRoot)

/-- The number of a tweak. -/
def scalar (bytes : Bytes) : ℕ := Radix.value 256 (bytes.map UInt8.toNat)

theorem scalar_inj {a b : Bytes} (hlen : a.length = b.length) (h : scalar a = scalar b) : a = b := by
  have hlt : ∀ bytes : Bytes, ∀ d ∈ bytes.map UInt8.toNat, d < 256 := by
    intro bytes d hd
    obtain ⟨c, -, rfl⟩ := List.mem_map.1 hd
    exact c.toNat_lt
  have hmap : a.map UInt8.toNat = b.map UInt8.toNat :=
    Radix.value_inj (by rw [List.length_map, List.length_map, hlen]) (hlt a) (hlt b) h
  exact List.map_injective_iff.2 (fun _ _ => UInt8.toNat_inj.1) hmap

/-- What the libraries make of keys: points of the curve, MuSig2's aggregate keys, and taproot
outputs. -/
structure KeyLibrary (B : Bitcoin) where
  Point : Type
  [group : AddCommGroup Point]
  curve : XOnlyKeys Point Bytes
  /-- `aggregateKeys` of public keys under x-only tweaks -/
  aggregateKeys : List Bytes → List Bytes → Option Bytes
  /-- `payments.p2tr` of an output key -/
  keyOutput : Bytes → Option Bytes
  aggregateKeys_tweak : ∀ keys t, aggregateKeys keys [t] =
    (aggregateKeys keys []).bind fun internal => curve.addTweak internal (scalar t)
  keyOutput_inj : ∀ k k' script, keyOutput k = some script → keyOutput k' = some script → k = k'
  p2tr_output : ∀ internal leaves o, B.p2tr internal leaves = some o →
    ∃ key, curve.addTweak internal (scalar (tapTweak B internal o.merkleRoot)) = some key ∧
      keyOutput key = some o.output

attribute [instance] KeyLibrary.group

variable {B : Bitcoin}

/-! ### The derivation -/

/-- The keys that an account is made of. -/
structure AccountKeys where
  /-- the pair of the agent and the daemon -/
  publicKeys : Bytes × Bytes
  ownKeyIndex : ℕ
  recoveryPublicKey : Option Bytes

/-- The pair, as the library takes it. -/
def AccountKeys.pair (keys : AccountKeys) : List Bytes := [keys.publicKeys.1, keys.publicKeys.2]

/-- The tree of an account of three keys. -/
structure TapTree where
  tweaks : List Bytes
  recovery : Bytes × Bytes

/-- The script of a leaf that a pair of keys spends. -/
def recoveryLeaf (aggregate : Bytes) : Bytes := Script.compile [.push aggregate, .op OP_CHECKSIG]

section Derivation

variable (L : KeyLibrary B) (keys : AccountKeys)

/-- The tree of an agent, a daemon and a recovery key. -/
def deriveMuSig2P2TR2of3 (agent daemon recovery : Bytes) : Option TapTree := do
  let internal ← L.aggregateKeys [agent, daemon] []
  let arAgg ← L.aggregateKeys [agent, recovery] []
  let drAgg ← L.aggregateKeys [daemon, recovery] []
  let leafAR := recoveryLeaf arAgg
  let leafDR := recoveryLeaf drAgg
  let p2tr ← B.p2tr internal [leafAR, leafDR]
  let tweak := B.taggedHash "TapTweak" (internal ++ p2tr.merkleRoot)
  return { tweaks := [tweak], recovery := (leafAR, leafDR) }

/-- The tweaks of a co-signer; one of three keys must hold the second key. -/
def setTapTree : Option (List Bytes × Option TapTree) :=
  match keys.recoveryPublicKey with
  | some recovery =>
    if keys.ownKeyIndex ≠ 1 then none
    else (deriveMuSig2P2TR2of3 L keys.publicKeys.1 keys.publicKeys.2 recovery).map fun tree =>
      (tree.tweaks, some tree)
  | none => some ([], none)

/-- The script and the internal key of a co-signer with these tweaks. -/
def setAccount (tweaks : List Bytes) : Option (Bytes × Bytes) := do
  let agg ← L.aggregateKeys keys.pair tweaks
  let accountScript ← L.keyOutput agg
  let internalXOnly ← L.aggregateKeys keys.pair []
  return (accountScript, internalXOnly)

/-- The co-signer is made from these keys. -/
structure CoSigner.MadeFrom (cs : CoSigner B) : Prop where
  tree : ∃ tapTree, setTapTree L keys = some (cs.tweaks, tapTree) ∧
    cs.recoveryLeaves = tapTree.map TapTree.recovery
  account : setAccount L keys cs.tweaks = some (cs.accountScript, cs.internalXOnly)

end Derivation

/-! ### Tweaks of a key -/

/-- The tree of an account with these recovery leaves. -/
def accountTree (recoveryLeaves : Option (Bytes × Bytes)) : Option (List Bytes) :=
  recoveryLeaves.map fun leaves => [leaves.1, leaves.2]

/-- The roots of these trees over a key. -/
def merkleRoots (B : Bitcoin) (internalXOnly : Bytes) (trees : List (List Bytes)) : Set Bytes :=
  {root | ∃ leaves ∈ trees, ∃ o, B.p2tr internalXOnly leaves = some o ∧ o.merkleRoot = root}

/-- The tweak sets of a key: none, or the hash that commits to one of the roots. -/
inductive KeyTweaks (B : Bitcoin) (internalXOnly : Bytes) (roots : Set Bytes) : List Bytes → Prop
  | none : KeyTweaks B internalXOnly roots []
  | tree (merkleRoot : Bytes) (hroot : merkleRoot ∈ roots) :
      KeyTweaks B internalXOnly roots [tapTweak B internalXOnly merkleRoot]

/-- The numbers of the tweaks of a key; zero for none. -/
def tweakScalars (B : Bitcoin) (internalXOnly : Bytes) (roots : Set Bytes) : Set ℕ :=
  {n | n = 0 ∨ ∃ merkleRoot ∈ roots, n = scalar (tapTweak B internalXOnly merkleRoot)}

/-- The tagged hashes of these roots do not collide as tweaks of a key: none adds nothing to the
key, and no two, nor one and none, take it to opposite points. -/
structure TweakHashes (L : KeyLibrary B) (internalXOnly : Bytes) (roots : Set Bytes) : Prop where
  length : ∀ root ∈ roots, (tapTweak B internalXOnly root).length = 32
  ne_zero : ∀ root ∈ roots, scalar (tapTweak B internalXOnly root) ≠ 0
  apart : L.curve.Apart internalXOnly (tweakScalars B internalXOnly roots)

variable {L : KeyLibrary B} {keys : AccountKeys} {cs : CoSigner B} {roots : Set Bytes}

theorem merkleRoots_mono {internalXOnly : Bytes} {trees trees' : List (List Bytes)}
    (h : trees ⊆ trees') : merkleRoots B internalXOnly trees ⊆ merkleRoots B internalXOnly trees' :=
  fun _ ⟨leaves, hleaves, hroot⟩ => ⟨leaves, h hleaves, hroot⟩

theorem KeyTweaks.mono {internalXOnly : Bytes} {roots' : Set Bytes} {ts : List Bytes}
    (h : KeyTweaks B internalXOnly roots ts) (hsub : roots ⊆ roots') :
    KeyTweaks B internalXOnly roots' ts := by
  cases h with
  | none => exact .none
  | tree root hroot => exact .tree root (hsub hroot)

/-- **An aggregate key tells the tweaks it is under.** -/
theorem tweaks_eq_of_aggregateKeys {pair ts us : List Bytes} {internal key : Bytes}
    (h : TweakHashes L internal roots) (hpair : L.aggregateKeys pair [] = some internal)
    (hts : KeyTweaks B internal roots ts) (hus : KeyTweaks B internal roots us)
    (hkts : L.aggregateKeys pair ts = some key) (hkus : L.aggregateKeys pair us = some key) :
    ts = us := by
  have hzero : 0 ∈ tweakScalars B internal roots := .inl rfl
  have hmem : ∀ root ∈ roots, scalar (tapTweak B internal root) ∈ tweakScalars B internal roots :=
    fun root hroot => .inr ⟨root, hroot, rfl⟩
  have htweak : ∀ {t}, L.aggregateKeys pair [t] = some key →
      L.curve.addTweak internal (scalar t) = some key := fun hk => by
    rwa [L.aggregateKeys_tweak, hpair] at hk
  cases hts with
  | none =>
    obtain rfl : internal = key := Option.some.inj (hpair.symm.trans hkts)
    cases hus with
    | none => rfl
    | tree root hroot =>
      exact absurd (XOnlyKeys.eq_zero_of_addTweak_self h.apart hzero (hmem root hroot)
        (htweak hkus)) (h.ne_zero root hroot)
  | tree root hroot =>
    cases hus with
    | none =>
      obtain rfl : internal = key := Option.some.inj (hpair.symm.trans hkus)
      exact absurd (XOnlyKeys.eq_zero_of_addTweak_self h.apart hzero (hmem root hroot)
        (htweak hkts)) (h.ne_zero root hroot)
    | tree root' hroot' =>
      have hscalar := XOnlyKeys.addTweak_inj h.apart (hmem root hroot) (hmem root' hroot')
        (htweak hkts) (htweak hkus)
      rw [scalar_inj ((h.length root hroot).trans (h.length root' hroot').symm) hscalar]

/-- The output is the one of the pair's key under these tweaks. -/
def OutputOf (L : KeyLibrary B) (pair tweaks : List Bytes) (script : Bytes) : Prop :=
  ∃ key, L.aggregateKeys pair tweaks = some key ∧ L.keyOutput key = some script

/-- **An output of a pair's key tells the tweaks that the key is under.** -/
theorem tweaks_eq_of_output {pair ts us : List Bytes} {internal script : Bytes}
    (h : TweakHashes L internal roots) (hpair : L.aggregateKeys pair [] = some internal)
    (hts : KeyTweaks B internal roots ts) (hus : KeyTweaks B internal roots us)
    (hots : OutputOf L pair ts script) (hous : OutputOf L pair us script) : ts = us := by
  obtain ⟨key, hkts, hscript⟩ := hots
  obtain ⟨key', hkus, hscript'⟩ := hous
  obtain rfl := L.keyOutput_inj key key' script hscript hscript'
  exact tweaks_eq_of_aggregateKeys h hpair hts hus hkts hkus

/-! ### The account of a co-signer -/

theorem CoSigner.MadeFrom.derived (h : cs.MadeFrom L keys) :
    L.aggregateKeys keys.pair [] = some cs.internalXOnly ∧
      OutputOf L keys.pair cs.tweaks cs.accountScript := by
  obtain ⟨key, hkey, hrest⟩ := Option.bind_eq_some_iff.1 h.account
  obtain ⟨script, hscript, hrest⟩ := Option.bind_eq_some_iff.1 hrest
  obtain ⟨internal, hinternal, hrest⟩ := Option.bind_eq_some_iff.1 hrest
  cases hrest
  exact ⟨hinternal, key, hkey, hscript⟩

theorem deriveMuSig2P2TR2of3_tweaks {agent daemon recovery internal : Bytes} {tree : TapTree}
    (h : deriveMuSig2P2TR2of3 L agent daemon recovery = some tree)
    (hpair : L.aggregateKeys [agent, daemon] [] = some internal) :
    KeyTweaks B internal
      (merkleRoots B internal (accountTree (some tree.recovery)).toList) tree.tweaks := by
  obtain ⟨internal', hinternal, h⟩ := Option.bind_eq_some_iff.1 h
  obtain ⟨_, -, h⟩ := Option.bind_eq_some_iff.1 h
  obtain ⟨_, -, h⟩ := Option.bind_eq_some_iff.1 h
  obtain ⟨p2tr, hp2tr, h⟩ := Option.bind_eq_some_iff.1 h
  cases h
  obtain rfl : internal = internal' := Option.some.inj (hpair.symm.trans hinternal)
  exact .tree p2tr.merkleRoot ⟨_, List.mem_singleton_self _, p2tr, hp2tr, rfl⟩

/-- A co-signer's tweaks are those of its internal key under the account's tree. -/
theorem CoSigner.MadeFrom.keyTweaks (h : cs.MadeFrom L keys) :
    KeyTweaks B cs.internalXOnly
      (merkleRoots B cs.internalXOnly (accountTree cs.recoveryLeaves).toList) cs.tweaks := by
  obtain ⟨tapTree, htree, hleaves⟩ := h.tree
  rw [hleaves]
  unfold setTapTree at htree
  cases hrec : keys.recoveryPublicKey with
  | none =>
    simp only [hrec, Option.some.injEq, Prod.mk.injEq] at htree
    rw [← htree.1]
    exact .none
  | some recovery =>
    simp only [hrec] at htree
    split_ifs at htree
    obtain ⟨tree, hderive, heq⟩ := Option.map_eq_some_iff.1 htree
    obtain ⟨htweaks, rfl⟩ := Prod.mk.inj heq
    rw [← htweaks]
    exact deriveMuSig2P2TR2of3_tweaks hderive h.derived.1

/-- The output of a tree is the one of the pair's key under the tweak of the tree. -/
theorem outputOf_p2tr {pair leaves : List Bytes} {internal : Bytes} {o : TapOutput}
    (hpair : L.aggregateKeys pair [] = some internal) (h : B.p2tr internal leaves = some o) :
    OutputOf L pair [tapTweak B internal o.merkleRoot] o.output := by
  obtain ⟨key, hkey, hscript⟩ := L.p2tr_output internal leaves o h
  exact ⟨key, by rw [L.aggregateKeys_tweak, hpair]; exact hkey, hscript⟩

end XChainSdk
