import XChainSdk.Cosigner.Account
import XChainSdk.Cosigner.Conservation

/-!
# One message, one tweak set

The daemon's nonce is a function of its key, of the agent's nonce, of the key set and of the message.
Signing one message under two tweak sets would spend one nonce under two challenges, which gives the
key away.  The role of an envelope round is read from a transaction that the agent writes, and with
it the tweaks; the message is a sighash of the same transaction.

* `IsSighash` : the message is the library's sighash of an input.
* `ownScript_outputOf` : a round on the key path spends the output of its own tweaks.
* `sign_one_tweakSet` : **for any two approved requests, equal messages are signed under equal
  tweaks**.

A reveal is told from the others by the leaf hash in its message.  Two rounds on the key path are
told apart by the prevout script in theirs, and this needs the prevout gate on every signed input and
that an output of the account's keys tells their tweaks.
-/

namespace XChainSdk

open Hash

variable {B : Bitcoin}

/-! ### Sighashes -/

/-- The library's sighashes tell what they commit to. -/
def SighashInjective (B : Bitcoin) : Prop :=
  ∀ tx₁ tx₂ i₁ i₂ prevouts₁ prevouts₂ leafHash₁ leafHash₂ msg,
    B.hashForWitnessV1 tx₁ i₁ prevouts₁ leafHash₁ = some msg →
    B.hashForWitnessV1 tx₂ i₂ prevouts₂ leafHash₂ = some msg →
    tx₁ = tx₂ ∧ i₁ = i₂ ∧ prevouts₁ = prevouts₂ ∧ leafHash₁ = leafHash₂

/-- The message is the sighash of an input, on a script path with the hash of its leaf. -/
def IsSighash (B : Bitcoin) (psbt : Psbt) (i : ℕ) (leafHash : Option Bytes) (msg : Bytes) : Prop :=
  i < psbt.txInputs.length ∧ ∃ prevouts,
    psbt.txInputs.map PsbtInput.witnessUtxo = prevouts.map some ∧
      B.hashForWitnessV1 psbt.transaction i prevouts leafHash = some msg

/-- The leaf hash in the message of a round. -/
def roundLeafHash (env : Option Envelope) : Option Bytes :=
  match env with
  | some env => if env.role = .reveal then some env.commit.leafHash else none
  | none => none

variable {H : Host} {M : MathJs} {D : Decoder} {L : KeyLibrary B} {keys : AccountKeys}
  {self : CoSigner B} {req : Request} {p p₁ p₂ : PreparedRequest} {approval : Approval}

theorem mapM_witnessUtxo_iff {psbt : Psbt} {prevouts : List TxOut} :
    psbt.txInputs.mapM PsbtInput.witnessUtxo = some prevouts ↔
      psbt.txInputs.map PsbtInput.witnessUtxo = prevouts.map some := by
  rw [Loop.mapM_eq_some_iff, ← List.forall₂_eq_eq_eq, List.forall₂_map_left_iff,
    List.forall₂_map_right_iff]

theorem sighashOf_isSighash {i : ℕ} {msg : Bytes} (hi : i < p.psbt.txInputs.length)
    (h : sighashOf B p i = some msg) : IsSighash B p.psbt i (roundLeafHash p.env) msg := by
  obtain ⟨prevouts, hprev, hhash⟩ := Option.bind_eq_some_iff.1 h
  exact ⟨hi, prevouts, mapM_witnessUtxo_iff.1 hprev, hhash⟩

theorem lt_of_prevoutScript {psbt : Psbt} {i : ℕ} {script : Bytes}
    (h : prevoutScript psbt i = some script) : i < psbt.txInputs.length := by
  obtain ⟨inp, hinp, -⟩ := Option.bind_eq_some_iff.1 h
  exact (List.getElem?_eq_some_iff.1 hinp).1

/-- The script of an input is the one of its prevout. -/
theorem prevoutScript_of_map {psbt : Psbt} {prevouts : List TxOut}
    (h : psbt.txInputs.map PsbtInput.witnessUtxo = prevouts.map some) (i : ℕ) :
    prevoutScript psbt i = prevouts[i]?.map TxOut.script := by
  have hi : (psbt.txInputs[i]?).map PsbtInput.witnessUtxo = (prevouts[i]?).map some := by
    rw [← List.getElem?_map, h, List.getElem?_map]
  unfold prevoutScript
  cases hin : psbt.txInputs[i]? with
  | none =>
    have hnone : prevouts[i]? = none := by simpa [hin] using hi.symm
    rw [hnone]
    rfl
  | some inp =>
    obtain ⟨out, hout, hutxo⟩ : ∃ out, prevouts[i]? = some out ∧ inp.witnessUtxo = some out := by
      rw [hin] at hi
      obtain ⟨out, hout, heq⟩ := Option.map_eq_some_iff.1 hi.symm
      exact ⟨out, hout, heq.symm⟩
    rw [hout, Option.bind_some]
    change Option.map TxOut.script inp.witnessUtxo = _
    rw [hutxo]

/-! ### Approved requests -/

/-- A partial signature, as the library makes it from the agent's nonce and the tweaks. -/
def SignedUnder (B : Bitcoin) (σ : PartialSignature) (nonce : Bytes) (tweaks : List Bytes) : Prop :=
  B.deterministicSign nonce tweaks σ.msg = some (σ.publicNonce, σ.sig)

/-- The agent's nonce for an input. -/
def agentNonce (p : PreparedRequest) (i : ℕ) : Option Bytes :=
  ((p.inputs.zip p.seenIdx).find? fun it => it.2 == i).bind fun it =>
    match it.1.field "agentPublicNonce" with
    | .str nonce => some (hexDecode nonce)
    | _ => none

/-- What the loop over the requested inputs establishes. -/
theorem validateInputs_ok {psbt : Psbt} {inputs : List Js} {scan : InputScan}
    (h : validateInputs psbt inputs = .ok scan) :
    scan.seenIdx.Nodup ∧
      List.Forall₂ (fun it i => (it.get "index").bind inputIndex = some i) inputs scan.seenIdx := by
  refine Checks.foldlM_inv (fun pre s => s.seenIdx.Nodup ∧
    List.Forall₂ (fun it i => (Js.get it "index").bind inputIndex = some i) pre s.seenIdx)
    ⟨List.nodup_nil, .nil⟩ ?_ h
  rintro pre it s s' ⟨hnodup, hall⟩ hstep
  unfold validateInput at hstep
  cases hget : it.get "index" with
  | none => simp [hget] at hstep
  | some index =>
    cases hidx : inputIndex index with
    | none => simp [hget, hidx, deny] at hstep
    | some i =>
      simp only [hget, hidx] at hstep
      obtain ⟨-, hstep⟩ := Checks.ite_error_eq_ok.1 hstep
      obtain ⟨hnew, hstep⟩ := Checks.ite_error_eq_ok.1 hstep
      have hnew' : i ∉ s.seenIdx := by simpa using hnew
      have hseen : s'.seenIdx = s.seenIdx ++ [i] := by
        split at hstep
        · cases hstep
        · cases hstep; rfl
        · split_ifs at hstep
          · cases hstep; rfl
          · cases hstep
      rw [hseen]
      refine ⟨List.nodup_append.2 ⟨hnodup, by simp, ?_⟩, ?_⟩
      · rintro a ha b hb rfl
        rw [List.mem_singleton.1 hb] at ha
        exact hnew' ha
      · exact List.rel_append hall (.cons (by rw [hget, Option.bind_some, hidx]) .nil)

/-- The inputs of a request are told apart by their indices. -/
theorem find?_zip_of_mem {α : Type} {l : List α} {idx : List ℕ} (hidx : idx.Nodup)
    (hlen : idx.length ≤ l.length) {it : α × ℕ} (h : it ∈ l.zip idx) : (l.zip idx).find? (fun a => a.2 == it.2) = some it := by
  have hnodup : ((l.zip idx).map Prod.snd).Nodup := by
    rwa [List.map_snd_zip hlen]
  cases hfind : (l.zip idx).find? (fun a => a.2 == it.2) with
  | none => simpa using List.find?_eq_none.1 hfind it h
  | some it' =>
    have heq : it'.2 = it.2 := by simpa using List.find?_some hfind
    rw [List.inj_on_of_nodup_map hnodup (List.mem_of_find?_eq_some hfind) h heq]

theorem signInput_ok (hidx : p.seenIdx.Nodup) (hlen : p.seenIdx.length ≤ p.inputs.length)
    {it : Js × ℕ} (hit : it ∈ p.inputs.zip p.seenIdx) {σ : PartialSignature} (h : signInput self p it = .ok σ) :
    σ.index = it.2 ∧ sighashOf B p it.2 = some σ.msg ∧ ∃ nonce, agentNonce p it.2 = some nonce ∧
      SignedUnder B σ nonce (envelopeRoundTweaks p.env self.tweaks) := by
  unfold signInput at h
  cases hmsg : sighashOf B p it.2 with
  | none => simp [hmsg, deny] at h
  | some msg =>
    simp only [hmsg] at h
    split at h
    · next nonce hnonce =>
      cases hsign : B.deterministicSign (hexDecode nonce) (envelopeRoundTweaks p.env self.tweaks)
          msg with
      | none => simp [hsign, deny] at h
      | some r =>
        simp only [hsign, Except.ok.injEq] at h
        subst h
        refine ⟨rfl, rfl, hexDecode nonce, ?_, hsign⟩
        unfold agentNonce
        rw [find?_zip_of_mem hidx hlen hit, Option.bind_some, hnonce]
    · cases h

/-- What the stages before the window establish of the inputs and of the envelope. -/
theorem prepareRequest_inputs (h : prepareRequest D self req = .ok p) :
    p.seenIdx.Nodup ∧
      List.Forall₂ (fun it i => (it.get "index").bind inputIndex = some i) p.inputs p.seenIdx ∧
      deriveEnvelope self req p.psbt = .ok p.env := by
  unfold prepareRequest at h
  obtain ⟨⟨psbt, inputs⟩, -, h⟩ := Checks.bind_eq_ok.1 h
  obtain ⟨validated, hval, h⟩ := Checks.bind_eq_ok.1 h
  obtain ⟨env, henv, h⟩ := Checks.bind_eq_ok.1 h
  obtain ⟨decoded, -, h⟩ := Checks.bind_eq_ok.1 h
  cases h
  obtain ⟨hnodup, hall⟩ := validateInputs_ok hval
  exact ⟨hnodup, hall, henv⟩

theorem authorize_signatures {windowUsage : Option WindowUsage} {evaluation : Option Evaluation}
    (h : authorize H M self req p windowUsage = .ok (approval, evaluation)) :
    GatesPassed self p ∧ signInputs self p = .ok approval.signatures := by
  unfold authorize at h
  obtain ⟨e, -, h⟩ := Checks.bind_eq_ok.1 h
  obtain ⟨_, htx, h⟩ := Checks.bind_eq_ok.1 h
  obtain ⟨signatures, hsign, h⟩ := Checks.bind_eq_ok.1 h
  cases h
  exact ⟨checkTransaction_ok htx, hsign⟩

/-- One signature of an approved request: whose input it is, and what it signs. -/
structure SignedInput (cs : CoSigner B) (p : PreparedRequest) (σ : PartialSignature) : Prop where
  requested : σ.index ∈ p.seenIdx
  message : sighashOf B p σ.index = some σ.msg
  spends : prevoutScript p.psbt σ.index = some (ownScript cs p.env)
  signed : ∃ nonce, agentNonce p σ.index = some nonce ∧
    SignedUnder B σ nonce (envelopeRoundTweaks p.env cs.tweaks)

theorem SignedInput.isSighash {σ : PartialSignature} (h : SignedInput self p σ) :
    IsSighash B p.psbt σ.index (roundLeafHash p.env) σ.msg :=
  sighashOf_isSighash (lt_of_prevoutScript h.spends) h.message

theorem Approves.signedInputs (h : Approves H M D self req approval)
    (hp : prepareRequest D self req = .ok p) {σ : PartialSignature}
    (hσ : σ ∈ approval.signatures) : SignedInput self p σ := by
  obtain ⟨q, windowUsage, evaluation, hq, ha⟩ := h.authorized
  obtain rfl : p = q := Except.ok.inj (hp.symm.trans hq)
  obtain ⟨hgates, hsign⟩ := authorize_signatures ha
  obtain ⟨it, hit, hone⟩ := Checks.exists_of_mem_mapM hsign hσ
  obtain ⟨hnodup, hall, -⟩ := prepareRequest_inputs hp
  obtain ⟨hindex, hmsg, hsigned⟩ := signInput_ok hnodup hall.length_eq.ge hit hone
  rw [← hindex] at hmsg hsigned
  have hmem : σ.index ∈ p.seenIdx := hindex ▸ (List.of_mem_zip hit).2
  exact ⟨hmem, hmsg, hgates.spends _ hmem, hsigned⟩

theorem deriveEnvelope_commit {psbt : Psbt} {env : Envelope}
    (h : deriveEnvelope self req psbt = .ok (some env)) :
    ∃ script, deriveEnvelopeCommit B self.internalXOnly script self.recoveryLeaves =
        some env.commit ∧
      classifyEnvelopeRole B psbt env.commit = some env.role := by
  unfold deriveEnvelope at h
  cases harg : req.envelope with
  | none => simp [harg] at h
  | some arg =>
    cases hcommit : deriveEnvelopeCommit B self.internalXOnly arg.script self.recoveryLeaves with
    | none => simp [harg, hcommit, deny] at h
    | some commit =>
      cases hrole : classifyEnvelopeRole B psbt commit with
      | none => simp [harg, hcommit, hrole, deny] at h
      | some role =>
        simp only [harg, hcommit, hrole, Except.ok.injEq, Option.some.injEq] at h
        subst h
        exact ⟨arg.script, hcommit, hrole⟩

/-- What a commit is derived from. -/
structure CommitSpec (B : Bitcoin) (internalXOnly : Bytes) (recoveryLeaves : Option (Bytes × Bytes))
    (commit : EnvelopeCommit) : Prop where
  leaf : ∃ parsed, parseEnvelopeScript B commit.script = some parsed ∧
    parsed.checksigKey = internalXOnly
  tree : ∃ o, B.p2tr internalXOnly (commit.script :: (accountTree recoveryLeaves).getD []) = some o ∧
    commit.output = o.output ∧ commit.tweak = tapTweak B internalXOnly o.merkleRoot
  leafHash : tapleafHash B commit.script = some commit.leafHash

theorem accountTree_of_normalize {recoveryLeaves : Option (Bytes × Bytes)} {leaves : List Bytes}
    (h : normalizeRecoveryLeaves recoveryLeaves = some leaves) :
    (accountTree recoveryLeaves).getD [] = leaves := by
  unfold normalizeRecoveryLeaves at h
  split at h
  · exact Option.some.inj h
  · split_ifs at h
    exact Option.some.inj h

theorem deriveEnvelopeCommit_spec {internalXOnly script : Bytes}
    {recoveryLeaves : Option (Bytes × Bytes)} {commit : EnvelopeCommit}
    (h : deriveEnvelopeCommit B internalXOnly script recoveryLeaves = some commit) :
    CommitSpec B internalXOnly recoveryLeaves commit := by
  unfold deriveEnvelopeCommit at h
  obtain ⟨_, -, h⟩ := Option.bind_eq_some_iff.1 h
  obtain ⟨parsed, hparsed, h⟩ := Option.bind_eq_some_iff.1 h
  obtain ⟨_, hkey, h⟩ := Option.bind_eq_some_iff.1 h
  obtain ⟨leaves, hleaves, h⟩ := Option.bind_eq_some_iff.1 h
  obtain ⟨o, ho, h⟩ := Option.bind_eq_some_iff.1 h
  obtain ⟨leafHash, hleaf, h⟩ := Option.bind_eq_some_iff.1 h
  have hkey' : parsed.checksigKey = internalXOnly := by
    by_contra hne
    simp [guard, hne] at hkey
  rw [← accountTree_of_normalize hleaves] at ho
  cases h
  exact ⟨⟨parsed, hparsed, hkey'⟩, ⟨o, ho, rfl, rfl⟩, hleaf⟩

/-- The trees of a round: the account's, and the one that commits to the envelope. -/
def roundTrees (cs : CoSigner B) (p : PreparedRequest) : List (List Bytes) :=
  (accountTree cs.recoveryLeaves).toList ++
    p.env.toList.map fun env => env.commit.script :: (accountTree cs.recoveryLeaves).getD []

/-- **A round on the key path spends the output of its own tweaks.** -/
theorem ownScript_outputOf (hself : self.MadeFrom L keys)
    (hp : prepareRequest D self req = .ok p) (hrole : roundLeafHash p.env = none) :
    KeyTweaks B self.internalXOnly (merkleRoots B self.internalXOnly (roundTrees self p))
        (envelopeRoundTweaks p.env self.tweaks) ∧
      OutputOf L keys.pair (envelopeRoundTweaks p.env self.tweaks) (ownScript self p.env) := by
  obtain ⟨hpair, haccount⟩ := hself.derived
  have hkey := hself.keyTweaks.mono (merkleRoots_mono (List.subset_append_left _
    (p.env.toList.map fun env => env.commit.script :: (accountTree self.recoveryLeaves).getD [])))
  obtain ⟨-, -, henv⟩ := prepareRequest_inputs hp
  cases h : p.env with
  | none => exact ⟨hkey, haccount⟩
  | some env =>
    have htree : env.commit.script :: (accountTree self.recoveryLeaves).getD [] ∈
        roundTrees self p := by
      simp [roundTrees, h]
    rw [h] at henv hrole
    obtain ⟨script, hcommit, -⟩ := deriveEnvelope_commit henv
    obtain ⟨commit, role⟩ := env
    cases role with
    | commit => exact ⟨hkey, haccount⟩
    | reveal => cases hrole
    | cancel =>
      obtain ⟨o, ho, houtput, htweak⟩ := (deriveEnvelopeCommit_spec hcommit).tree
      dsimp only at ho houtput htweak htree
      change KeyTweaks B _ _ [commit.tweak] ∧ OutputOf L _ [commit.tweak] commit.output
      rw [htweak, houtput]
      exact ⟨.tree o.merkleRoot ⟨_, htree, o, ho, rfl⟩, outputOf_p2tr hpair ho⟩

theorem tweaks_of_reveal {env : Option Envelope} {leaf : Bytes}
    (h : roundLeafHash env = some leaf) (tweaks : List Bytes) :
    envelopeRoundTweaks env tweaks = [] := by
  cases env with
  | none => cases h
  | some env =>
    obtain ⟨commit, role⟩ := env
    cases role with
    | reveal => rfl
    | commit => cases h
    | cancel => cases h

/-- Equal messages are signed under equal tweaks. -/
theorem tweaks_eq_of_msg_eq (hself : self.MadeFrom L keys)
    (hhash : TweakHashes L self.internalXOnly
      (merkleRoots B self.internalXOnly (roundTrees self p₁ ++ roundTrees self p₂)))
    (hsig : SighashInjective B) {req₁ req₂ : Request}
    (hp₁ : prepareRequest D self req₁ = .ok p₁) (hp₂ : prepareRequest D self req₂ = .ok p₂)
    {σ₁ σ₂ : PartialSignature} (h₁ : SignedInput self p₁ σ₁) (h₂ : SignedInput self p₂ σ₂)
    (hmsg : σ₁.msg = σ₂.msg) :
    envelopeRoundTweaks p₁.env self.tweaks = envelopeRoundTweaks p₂.env self.tweaks := by
  obtain ⟨-, prevouts₁, hprev₁, hm₁⟩ := h₁.isSighash
  obtain ⟨-, prevouts₂, hprev₂, hm₂⟩ := h₂.isSighash
  obtain ⟨-, hindex, rfl, hleaf⟩ := hsig _ _ _ _ _ _ _ _ _ hm₁ (hmsg ▸ hm₂)
  cases hl : roundLeafHash p₁.env with
  | some leaf =>
    -- both rounds reveal: neither is tweaked
    rw [tweaks_of_reveal hl, tweaks_of_reveal (hleaf ▸ hl)]
  | none =>
    obtain ⟨hkey₁, hout₁⟩ := ownScript_outputOf hself hp₁ hl
    obtain ⟨hkey₂, hout₂⟩ := ownScript_outputOf hself hp₂ (hleaf ▸ hl)
    -- the scripts that they spend are in the message
    have hscript : ownScript self p₁.env = ownScript self p₂.env := by
      have hs₁ := h₁.spends
      have hs₂ := h₂.spends
      rw [prevoutScript_of_map hprev₁, hindex] at hs₁
      rw [prevoutScript_of_map hprev₂] at hs₂
      exact Option.some.inj (hs₁.symm.trans hs₂)
    exact tweaks_eq_of_output hhash hself.derived.1
      (hkey₁.mono (merkleRoots_mono (List.subset_append_left _ _)))
      (hkey₂.mono (merkleRoots_mono (List.subset_append_right _ _))) hout₁ (hscript ▸ hout₂)

/-- Two signatures of one message are one function of the agent's nonce. -/
structure OneTweakSet (cs : CoSigner B) (p₁ p₂ : PreparedRequest) (σ₁ σ₂ : PartialSignature) :
    Prop where
  tweaks : envelopeRoundTweaks p₁.env cs.tweaks = envelopeRoundTweaks p₂.env cs.tweaks
  signed₁ : ∃ nonce, agentNonce p₁ σ₁.index = some nonce ∧
    SignedUnder B σ₁ nonce (envelopeRoundTweaks p₁.env cs.tweaks)
  signed₂ : ∃ nonce, agentNonce p₂ σ₂.index = some nonce ∧
    SignedUnder B σ₂ nonce (envelopeRoundTweaks p₂.env cs.tweaks)
  replay : agentNonce p₁ σ₁.index = agentNonce p₂ σ₂.index →
    σ₁.publicNonce = σ₂.publicNonce ∧ σ₁.sig = σ₂.sig

/-- **One message, one tweak set.**  Any two approved requests sign equal messages under equal
tweaks, so that a partial signature is one function of the agent's nonce and the message. -/
theorem sign_one_tweakSet (H : Host) (M : MathJs) (D : Decoder) (L : KeyLibrary B)
    (keys : AccountKeys) (self : CoSigner B) (hself : self.MadeFrom L keys)
    (hsig : SighashInjective B) (req₁ req₂ : Request) (approval₁ approval₂ : Approval)
    (p₁ p₂ : PreparedRequest)
    (hhash : TweakHashes L self.internalXOnly
      (merkleRoots B self.internalXOnly (roundTrees self p₁ ++ roundTrees self p₂)))
    (h₁ : Approves H M D self req₁ approval₁) (h₂ : Approves H M D self req₂ approval₂)
    (hp₁ : prepareRequest D self req₁ = .ok p₁) (hp₂ : prepareRequest D self req₂ = .ok p₂)
    (σ₁ σ₂ : PartialSignature) (hσ₁ : σ₁ ∈ approval₁.signatures)
    (hσ₂ : σ₂ ∈ approval₂.signatures) (hmsg : σ₁.msg = σ₂.msg) :
    OneTweakSet self p₁ p₂ σ₁ σ₂ := by
  have hs₁ := h₁.signedInputs hp₁ hσ₁
  have hs₂ := h₂.signedInputs hp₂ hσ₂
  have htweaks := tweaks_eq_of_msg_eq hself hhash hsig hp₁ hp₂ hs₁ hs₂ hmsg
  refine ⟨htweaks, hs₁.signed, hs₂.signed, fun hnonce => ?_⟩
  obtain ⟨nonce₁, hnonce₁, hsigned₁⟩ := hs₁.signed
  obtain ⟨nonce₂, hnonce₂, hsigned₂⟩ := hs₂.signed
  obtain rfl : nonce₁ = nonce₂ := Option.some.inj (hnonce₁.symm.trans (hnonce.trans hnonce₂))
  unfold SignedUnder at hsigned₁ hsigned₂
  rw [← htweaks, ← hmsg, hsigned₁, Option.some.injEq, Prod.mk.injEq] at hsigned₂
  exact hsigned₂

/-! ### A cancel and its retry -/

/-- A key or a hash that ends in this byte. -/
def lastByte (b : UInt8) : Bytes := List.replicate 31 0 ++ [b]

/-- Whole numbers, known up to their sign. -/
def sampleCurve : XOnlyKeys ℤ Bytes where
  base := 1
  order := 256
  xOnly P := if 0 < P.natAbs ∧ P.natAbs < 256 then some (lastByte (UInt8.ofNat P.natAbs)) else none
  lift k := if k = lastByte 1 then some 1 else none
  nsmul_inj s t _ _ h := by simpa using h
  xOnly_inj P Q k hP hQ := by
    split_ifs at hP hQ with hP' hQ'
    have hbyte : lastByte (UInt8.ofNat P.natAbs) = lastByte (UInt8.ofNat Q.natAbs) :=
      Option.some.inj (hP.trans hQ.symm)
    have habs : P.natAbs = Q.natAbs := by
      have hnat := congrArg UInt8.toNat (List.singleton_injective (List.append_cancel_left hbyte))
      rwa [UInt8.toNat_ofNat_of_lt' hP'.2, UInt8.toNat_ofNat_of_lt' hQ'.2] at hnat
    exact Int.natAbs_eq_natAbs_iff.1 habs
  xOnly_lift k P h := by
    split_ifs at h with hk
    cases h
    rw [hk]
    rfl

/-- The script of an output key. -/
def outputScript (key : Bytes) : Bytes := 0x51 :: 0x20 :: key

/-- A transaction that takes an envelope's commit back to the account. -/
def cancelPsbt : Psbt where
  version := 2
  locktime := 0
  txInputs := [⟨List.replicate 32 9, 0, 0xffffffff, some ⟨outputScript (lastByte 2), 10000⟩, []⟩]
  txOutputs := [⟨outputScript (lastByte 1), 9600⟩]

/-- A library whose hashes end in one and which knows the sighash of this transaction. -/
def cancelBitcoin : Bitcoin where
  decompile := Script.decompile
  psbtFromHex text := if text = "70736274" then some cancelPsbt else none
  getId _ := none
  p2tr internal _ := (sampleCurve.addTweak internal 1).map fun key => ⟨outputScript key, lastByte 5⟩
  taggedHash _ _ := lastByte 1
  hashForWitnessV1 tx i prevouts leafHash :=
    if tx = cancelPsbt.transaction ∧ i = 0 ∧
        prevouts = [⟨outputScript (lastByte 2), 10000⟩] ∧ leafHash = none then
      some (List.replicate 32 3)
    else none
  deterministicSign _ _ _ := some (List.replicate 66 2, List.replicate 32 1)

/-- The pair's key is one, and a tweak adds to it. -/
def cancelLibrary : KeyLibrary cancelBitcoin where
  Point := ℤ
  curve := sampleCurve
  aggregateKeys _ tweaks :=
    match tweaks with
    | [] => some (lastByte 1)
    | [t] => sampleCurve.addTweak (lastByte 1) (scalar t)
    | _ => none
  keyOutput key := some (outputScript key)
  aggregateKeys_tweak _ _ := rfl
  keyOutput_inj k k' script h h' := by
    have heq : outputScript k = outputScript k' := Option.some.inj (h.trans h'.symm)
    exact List.cons_injective (List.cons_injective heq)
  p2tr_output internal leaves o h := by
    obtain ⟨key, hkey, rfl⟩ := Option.map_eq_some_iff.1 h
    exact ⟨key, hkey, rfl⟩

/-- The keys of a pair. -/
def cancelKeys : AccountKeys := ⟨(2 :: lastByte 5, 2 :: lastByte 6), 1, none⟩

/-- The co-signer of this pair. -/
def cancelCoSigner : CoSigner cancelBitcoin where
  policy := { allowedActions := ["SEND"] }
  allowConfirmable := false
  allowedOutputs := []
  maxFeeSats := some 500
  maxCosignInputs := 32
  accountScript := outputScript (lastByte 1)
  internalXOnly := lastByte 1
  tweaks := []
  recoveryLeaves := none

theorem cancelCoSigner_madeFrom : cancelCoSigner.MadeFrom cancelLibrary cancelKeys where
  tree := ⟨none, rfl, rfl⟩
  account := rfl

theorem tweakHashes_cancelLibrary (roots : Set Bytes) :
    TweakHashes cancelLibrary (lastByte 1) roots where
  length _ _ := rfl
  ne_zero _ _ := (by decide : scalar (lastByte 1) ≠ 0)
  apart := by
    intro (P : ℤ) hP s hs t ht
    obtain rfl : P = 1 := (Option.some.inj hP).symm
    have hsmall : ∀ n ∈ tweakScalars cancelBitcoin (lastByte 1) roots, n = 0 ∨ n = 1 := by
      rintro n (rfl | ⟨root, -, rfl⟩)
      exacts [.inl rfl, .inr rfl]
    change (1 : ℤ) + s • (1 : ℤ) ≠ -(1 + t • (1 : ℤ))
    simp only [nsmul_eq_mul, mul_one]
    rcases hsmall s hs with rfl | rfl <;> rcases hsmall t ht with rfl | rfl <;> decide

theorem sighashInjective_cancelBitcoin : SighashInjective cancelBitcoin := by
  intro tx₁ tx₂ i₁ i₂ prevouts₁ prevouts₂ leafHash₁ leafHash₂ msg h₁ h₂
  have hone : ∀ {tx i prevouts leafHash},
      cancelBitcoin.hashForWitnessV1 tx i prevouts leafHash = some msg →
      tx = cancelPsbt.transaction ∧ i = 0 ∧
        prevouts = [⟨outputScript (lastByte 2), 10000⟩] ∧ leafHash = none := by
    intro tx i prevouts leafHash h
    by_contra hne
    exact absurd (h.symm.trans (if_neg hne)) (by simp)
  obtain ⟨rfl, rfl, rfl, rfl⟩ := hone h₁
  obtain ⟨rfl, rfl, rfl, rfl⟩ := hone h₂
  exact ⟨rfl, rfl, rfl, rfl⟩

/-- The script of an envelope of the pair's key. -/
def cancelScript : Bytes := buildEnvelopeScript [[0x41, 0x42]] (lastByte 1)

/-- The request to cancel the envelope, with a nonce of the agent. -/
def cancelRound (nonce : String) : Request where
  psbt := .psbt cancelPsbt
  inputs := .arr [.obj [("index", .num (.fin 0)), ("agentPublicNonce", .str nonce)]]
  envelope := some (.bytes cancelScript)

def cancelPrepared (nonce : String) : PreparedRequest where
  psbt := cancelPsbt
  inputs := [.obj [("index", .num (.fin 0)), ("agentPublicNonce", .str nonce)]]
  seenIdx := [0]
  env := some ⟨⟨outputScript (lastByte 2), lastByte 1, lastByte 1, cancelScript, [0x41, 0x42]⟩,
    .cancel⟩
  decoded := sendTen "TOK"

/-- Every transaction and every envelope carries ten units of a token. -/
def cancelDecoder : Decoder where
  decodeActionFromPsbt _ := .ok (sendTen "TOK")
  decodeEnvelopeAction _ := .ok (sendTen "TOK")
  texts := sendTen_texts "TOK"
  envelopeTexts := sendTen_texts "TOK"

theorem prepareRequest_cancelRound (nonce : String) :
    prepareRequest cancelDecoder cancelCoSigner (cancelRound nonce) =
      .ok (cancelPrepared nonce) :=
  rfl

theorem approved_of_isOk {H : Host} {M : MathJs} {D : Decoder} {self : CoSigner B} {req : Request}
    (h : (processUnlimited H M D self req).isOk = true) :
    ∃ approval, Approves H M D self req approval := by
  cases hok : processUnlimited H M D self req with
  | error d => rw [hok] at h; cases h
  | ok approval => exact ⟨approval, .inr hok⟩

/-- Both sign under the tweak of the commit. -/
theorem sign_one_tweakSet_cancel : ∃ (approval₁ approval₂ : Approval),
    Approves plainHost plainMath cancelDecoder cancelCoSigner (cancelRound "02") approval₁ ∧
    Approves plainHost plainMath cancelDecoder cancelCoSigner (cancelRound "03") approval₂ ∧
      envelopeRoundTweaks (cancelPrepared "02").env cancelCoSigner.tweaks = [lastByte 1] ∧
      ∀ σ₁ ∈ approval₁.signatures, ∀ σ₂ ∈ approval₂.signatures, σ₁.msg = σ₂.msg →
        OneTweakSet cancelCoSigner (cancelPrepared "02") (cancelPrepared "03") σ₁ σ₂ := by
  obtain ⟨approval₁, h₁⟩ := approved_of_isOk (show (processUnlimited plainHost plainMath
    cancelDecoder cancelCoSigner (cancelRound "02")).isOk = true by decide +kernel)
  obtain ⟨approval₂, h₂⟩ := approved_of_isOk (show (processUnlimited plainHost plainMath
    cancelDecoder cancelCoSigner (cancelRound "03")).isOk = true by decide +kernel)
  refine ⟨approval₁, approval₂, h₁, h₂, rfl, fun σ₁ hσ₁ σ₂ hσ₂ hmsg => ?_⟩
  exact sign_one_tweakSet plainHost plainMath cancelDecoder cancelLibrary cancelKeys cancelCoSigner
    cancelCoSigner_madeFrom sighashInjective_cancelBitcoin _ _ approval₁ approval₂ _ _
    (tweakHashes_cancelLibrary _) h₁ h₂ (prepareRequest_cancelRound _) (prepareRequest_cancelRound _)
    σ₁ σ₂ hσ₁ hσ₂ hmsg

end XChainSdk
