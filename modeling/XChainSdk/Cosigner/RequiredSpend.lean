import XChainSdk.Cosigner.TweakSafety

/-!
# What an output asks of a signature

A taproot output is spent by a signature under its own key, or by one under the key that a leaf of
its tree checks; the message is the sighash of the input, and for a leaf it holds the leaf's hash.

* `CompactSize`, `IsLeafHash` : the hash of a leaf.
* `ChecksKey` : a leaf that checks one signature, of one key.
* `RequiredSpend` : **the message and the tweaks that spend an output of a pair's keys**.
* `SignedInput.required` : what the daemon signs spends the output of the input.
-/

namespace XChainSdk

open Hash Script

/-! ### Leaves -/

/-- A length as a transaction writes it. -/
inductive CompactSize : ℕ → Bytes → Prop
  | byte (b : UInt8) (h : b.toNat < 0xfd) : CompactSize b.toNat [b]
  | two (bytes : Bytes) (hlen : bytes.length = 2) (h : 0xfd ≤ readLE bytes) :
      CompactSize (readLE bytes) (0xfd :: bytes)
  | four (bytes : Bytes) (hlen : bytes.length = 4) (h : 0xffff < readLE bytes) :
      CompactSize (readLE bytes) (0xfe :: bytes)

/-- The hash of a leaf: its version, its length and its script. -/
def IsLeafHash (B : Bitcoin) (script hash : Bytes) : Prop :=
  ∃ size, CompactSize script.length size ∧ hash = B.taggedHash "TapLeaf" (0xc0 :: size ++ script)

/-- A leaf that checks a signature of this key; what it pushes before is in a branch that is not
taken. -/
def ChecksKey (B : Bitcoin) (script key : Bytes) : Prop :=
  ∃ skipped : List Bytes, B.decompile script = some (.op OP_0 :: .op OP_IF ::
    (skipped.map Chunk.push ++ [.op OP_ENDIF, .push key, .op OP_CHECKSIG]))

variable {B : Bitcoin}

theorem littleEndian_readLE (bytes : Bytes) : littleEndian bytes.length (readLE bytes) = bytes := by
  induction bytes with
  | nil => rfl
  | cons b bytes ih =>
    have hb : b.toNat < 256 := b.toNat_lt
    have hbyte : UInt8.ofNat (b.toNat + 256 * readLE bytes) = b := by
      refine UInt8.toNat_inj.1 ?_
      rw [UInt8.toNat_ofNat']
      omega
    have hrest : (b.toNat + 256 * readLE bytes) / 256 = readLE bytes := by omega
    rw [readLE, List.length_cons, littleEndian, hbyte, hrest, ih]

/-- The writer of lengths writes what a transaction does. -/
theorem compactSizePrefix_iff {script size : Bytes} :
    compactSizePrefix script = some size ↔ CompactSize script.length size := by
  have hread : ∀ k n, n < 256 ^ k → readLE (littleEndian k n) = n := fun k n hn => by
    rw [readLE_littleEndian, Nat.mod_eq_of_lt hn]
  unfold compactSizePrefix
  simp only
  constructor
  · intro h
    split_ifs at h with hbyte hword hdouble
    · obtain rfl := Option.some.inj h
      have hn : (UInt8.ofNat script.length).toNat = script.length :=
        UInt8.toNat_ofNat_of_lt' (hbyte.trans (by decide))
      have hsize := CompactSize.byte (UInt8.ofNat script.length) (by omega)
      rwa [hn] at hsize
    · obtain rfl := Option.some.inj h
      have hn := hread 2 script.length (by omega)
      have hsize := CompactSize.two (littleEndian 2 script.length) (length_littleEndian _ _)
        (by omega)
      rwa [hn] at hsize
    · obtain rfl := Option.some.inj h
      have hn := hread 4 script.length (by omega)
      have hsize := CompactSize.four (littleEndian 4 script.length) (length_littleEndian _ _)
        (by omega)
      rwa [hn] at hsize
  · intro h
    generalize script.length = n at h
    cases h with
    | byte b h => rw [if_pos h, UInt8.ofNat_toNat]
    | two bytes hlen h =>
      have hlt := readLE_lt bytes
      rw [hlen] at hlt
      rw [if_neg (by omega), if_pos (by omega), ← hlen, littleEndian_readLE]
    | four bytes hlen h =>
      have hlt := readLE_lt bytes
      rw [hlen] at hlt
      rw [if_neg (by omega), if_neg (by omega), if_pos (by omega), ← hlen, littleEndian_readLE]

theorem tapleafHash_iff {script hash : Bytes} :
    tapleafHash B script = some hash ↔ IsLeafHash B script hash := by
  rw [tapleafHash, Option.map_eq_some_iff]
  constructor
  · rintro ⟨size, hsize, rfl⟩
    exact ⟨size, compactSizePrefix_iff.1 hsize, rfl⟩
  · rintro ⟨size, hsize, rfl⟩
    exact ⟨size, compactSizePrefix_iff.2 hsize, rfl⟩

/-- An envelope checks the key that it names. -/
theorem checksKey_of_parse {script : Bytes} {parsed : ParsedEnvelope}
    (h : parseEnvelopeScript B script = some parsed) : ChecksKey B script parsed.checksigKey := by
  unfold parseEnvelopeScript at h
  split_ifs at h with hshort
  cases hchunks : B.decompile script with
  | none => simp [hchunks] at h
  | some chunks =>
    simp only [hchunks] at h
    split_ifs at h with hfew
    obtain ⟨pushes, -, rfl, -, -⟩ := parseEnvelopeChunks_eq_some.1 h
    exact ⟨ENVELOPE_MAGIC :: [ENVELOPE_FORMAT_V0] :: pushes, hchunks⟩

/-! ### Spending -/

/-- The message and the tweaks that spend the output of an input with a signature of a pair's keys:
the key of the output is theirs, or its tree has a leaf that checks their key. -/
inductive RequiredSpend (L : KeyLibrary B) (pair : List Bytes) (psbt : Psbt) (i : ℕ) (msg : Bytes)
    (tweaks : List Bytes) : Prop
  | keyPath (script : Bytes) (hscript : prevoutScript psbt i = some script)
      (hkey : OutputOf L pair tweaks script) (hmsg : IsSighash B psbt i none msg)
  | leaf (internal leafScript key hash : Bytes) (leaves : List Bytes) (o : TapOutput)
      (htree : B.p2tr internal leaves = some o) (hleaf : leafScript ∈ leaves)
      (hscript : prevoutScript psbt i = some o.output) (hchecks : ChecksKey B leafScript key)
      (hkey : L.aggregateKeys pair tweaks = some key) (hhash : IsLeafHash B leafScript hash)
      (hmsg : IsSighash B psbt i (some hash) msg)

variable {D : Decoder} {L : KeyLibrary B} {keys : AccountKeys} {self : CoSigner B} {req : Request}
  {p : PreparedRequest}

/-- **What the daemon signs spends the output of the input.** -/
theorem SignedInput.required (hself : self.MadeFrom L keys)
    (hp : prepareRequest D self req = .ok p) {σ : PartialSignature} (h : SignedInput self p σ) :
    RequiredSpend L keys.pair p.psbt σ.index σ.msg (envelopeRoundTweaks p.env self.tweaks) := by
  have hmsg := h.isSighash
  cases hleaf : roundLeafHash p.env with
  | none =>
    rw [hleaf] at hmsg
    exact .keyPath _ h.spends (ownScript_outputOf hself hp hleaf).2 hmsg
  | some leaf =>
    rw [hleaf] at hmsg
    obtain ⟨-, -, henv⟩ := prepareRequest_inputs hp
    cases hp' : p.env with
    | none => rw [hp'] at hleaf; cases hleaf
    | some env =>
      rw [hp'] at henv hleaf
      obtain ⟨script, hcommit, -⟩ := deriveEnvelope_commit henv
      have hspec := deriveEnvelopeCommit_spec hcommit
      have hspends := h.spends
      rw [hp'] at hspends
      obtain ⟨commit, role⟩ := env
      -- only a reveal has a leaf hash in its message
      cases role with
      | commit => cases hleaf
      | cancel => cases hleaf
      | reveal =>
        cases hleaf
        obtain ⟨o, ho, houtput, -⟩ := hspec.tree
        obtain ⟨parsed, hparsed, hkey⟩ := hspec.leaf
        dsimp only at ho houtput hparsed
        have hkey' : L.aggregateKeys keys.pair [] = some parsed.checksigKey := by
          rw [hkey]
          exact hself.derived.1
        refine .leaf self.internalXOnly commit.script parsed.checksigKey commit.leafHash _ o ho
          List.mem_cons_self ?_ (checksKey_of_parse hparsed) hkey' (tapleafHash_iff.1 hspec.leafHash)
          hmsg
        rw [hspends, ← houtput]
        rfl

end XChainSdk
