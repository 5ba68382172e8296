import XChainSdk.Cosigner.RequiredSpend
import XChainSdk.Cosigner.SigningClient

/-!
# Both halves of a signing round

What the daemon signs is what the agent derives by itself, and whatever the daemon answers, the
agent signs no more than it asked for.

* `sameAccount_of_keys` : both halves derive one account from its keys.
* `Approves.agrees` : the daemon's message and tweaks of an approved input, against the agent's, and
  against what the output that is spent asks for.
* `SigningInv` : every partial is over a sighash that the agent derived, with the nonce of its
  input.
* `GoodAnswer` : an answer whose signatures are good for inputs that were asked for.
* `signEntries_eq_ok` : when an answer is taken.
* `cosign_round_iff` : the agreement, and when the signatures are those of the requested inputs.

`sign` wants one signature, of the input that it asked for.  `signAll` does not count the signatures
of an answer, nor look at their order.
-/

namespace XChainSdk

open Hash

variable {B : Bitcoin} {G : MuSig} {C : SigningClient} {L : KeyLibrary B} {keys : AccountKeys}

/-! ### One account -/

/-- The client and the co-signer derive one account. -/
structure SameAccount (C : SigningClient) (cs : CoSigner B) : Prop where
  internalXOnly : C.internalXOnly = cs.internalXOnly
  recoveryLeaves : C.recoveryLeaves = cs.recoveryLeaves
  tweaks : C.tweaks = cs.tweaks

theorem sameAccount_of_keys {self : CoSigner B} {tweaks : Option (List Bytes)}
    (hself : self.MadeFrom L keys) (hC : signingClient L keys tweaks = some C)
    (htweaks : keys.recoveryPublicKey = none → tweaks.getD [] = []) : SameAccount C self := by
  obtain ⟨tapTree, htree, hleaves⟩ := hself.tree
  obtain ⟨_, -, hC⟩ := Option.bind_eq_some_iff.1 hC
  obtain ⟨internal, hinternal, hC⟩ := Option.bind_eq_some_iff.1 hC
  have hkey : internal = self.internalXOnly :=
    Option.some.inj (hinternal.symm.trans hself.derived.1)
  unfold setTapTree at htree
  cases hrec : keys.recoveryPublicKey with
  | none =>
    simp only [hrec, Option.some.injEq, Prod.mk.injEq] at htree hC
    obtain ⟨htw, rfl⟩ := htree
    cases hC
    exact ⟨hkey, hleaves.symm, (htweaks hrec).trans htw⟩
  | some recovery =>
    simp only [hrec] at htree hC
    split_ifs at htree
    obtain ⟨tree, hderive, heq⟩ := Option.map_eq_some_iff.1 htree
    have htw : tree.tweaks = self.tweaks := congrArg Prod.fst heq
    have hsome : some tree = tapTree := congrArg Prod.snd heq
    rw [← hsome] at hleaves
    rw [hderive, Option.bind_eq_bind, Option.bind_some] at hC
    cases tweaks with
    | none =>
      obtain ⟨_, -, hC⟩ := Option.bind_eq_some_iff.1 hC
      cases hC
      exact ⟨hkey, hleaves.symm, htw⟩
    | some tweaks =>
      simp only at hC
      split_ifs at hC with hmatch
      cases hC
      exact ⟨hkey, hleaves.symm, hmatch.trans htw⟩

/-! ### Agreement -/

/-- What the agent derives of a signed input, against what the daemon signed. -/
structure Agreement (L : KeyLibrary B) (keys : AccountKeys) (C : SigningClient) (psbtHex : String)
    (p : PreparedRequest) (σ : PartialSignature) : Prop where
  message : clientSighash B psbtHex p.env σ.index = some σ.msg
  signed : ∃ nonce, agentNonce p σ.index = some nonce ∧
    SignedUnder B σ nonce (envelopeRoundTweaks p.env C.tweaks)
  required : RequiredSpend L keys.pair p.psbt σ.index σ.msg (envelopeRoundTweaks p.env C.tweaks)

variable {H : Host} {M : MathJs} {D : Decoder} {self : CoSigner B} {req : Request}
  {p : PreparedRequest} {approval : Approval}

/-- The agent derives the sighash of an input of its transaction. -/
theorem clientSighash_iff {psbtHex : String} {env : Option Envelope} {i : ℕ} {msg : Bytes} :
    clientSighash B psbtHex env i = some msg ↔
      ∃ psbt, B.psbtFromHex psbtHex = some psbt ∧ IsSighash B psbt i (roundLeafHash env) msg := by
  unfold clientSighash
  rw [Option.bind_eq_bind, Option.bind_eq_some_iff]
  refine exists_congr fun psbt => and_congr_right fun _ => ?_
  by_cases hi : i < psbt.txInputs.length
  · have hguard : (guard (i < psbt.txInputs.length) : Option Unit) = some () := if_pos hi
    rw [hguard, Option.bind_eq_bind, Option.bind_some, Option.bind_eq_bind,
      Option.bind_eq_some_iff]
    simp only [mapM_witnessUtxo_iff, IsSighash, hi, true_and]
  · simp [guard, hi, IsSighash]

/-- The agent's envelope is the daemon's. -/
theorem envelopeContext_eq (hacc : SameAccount C self) {psbtHex : String}
    {arg : Option EnvelopeArg} (hpsbt : B.psbtFromHex psbtHex = some p.psbt)
    (harg : arg.map EnvelopeArg.script = req.envelope.map EnvelopeArg.script)
    (h : deriveEnvelope self req p.psbt = .ok p.env) :
    envelopeContext B C psbtHex arg = .ok p.env := by
  unfold deriveEnvelope at h
  unfold envelopeContext
  cases hreq : req.envelope with
  | none =>
    rw [hreq] at h harg
    cases arg with
    | none => exact h
    | some _ => cases harg
  | some daemonArg =>
    rw [hreq] at h harg
    cases arg with
    | none => cases harg
    | some arg =>
      have hscript : arg.script = daemonArg.script := Option.some.inj harg
      simp only [hscript, hacc.internalXOnly, hacc.recoveryLeaves, hpsbt]
      cases hcommit : deriveEnvelopeCommit B self.internalXOnly daemonArg.script
          self.recoveryLeaves with
      | none => simp [hcommit, deny] at h
      | some commit =>
        cases hrole : classifyEnvelopeRole B p.psbt commit with
        | none => simp [hcommit, hrole, deny] at h
        | some role => simpa [hcommit, hrole] using h

/-- **The agent derives what the daemon signed.** -/
theorem Approves.agrees (hself : self.MadeFrom L keys) (hacc : SameAccount C self)
    (h : Approves H M D self req approval) (hp : prepareRequest D self req = .ok p)
    {psbtHex : String} (hpsbt : B.psbtFromHex psbtHex = some p.psbt) {σ : PartialSignature}
    (hσ : σ ∈ approval.signatures) : Agreement L keys C psbtHex p σ := by
  have hsigned := h.signedInputs hp hσ
  have htweaks := hacc.tweaks
  refine ⟨clientSighash_iff.2 ⟨p.psbt, hpsbt, hsigned.isSighash⟩, ?_, ?_⟩
  · rw [htweaks]
    exact hsigned.signed
  · rw [htweaks]
    exact hsigned.required hself hp

/-! ### The sighashes of a round -/

/-- The leaf hash in the messages of a round: on a reveal the one of the envelope's script. -/
inductive RoundLeaf (B : Bitcoin) : Option Envelope → Option Bytes → Prop
  | keyPath (env : Option Envelope) (h : ∀ e, env = some e → e.role ≠ .reveal) :
      RoundLeaf B env none
  | reveal (env : Envelope) (hash : Bytes) (h : env.role = .reveal)
      (hhash : IsLeafHash B env.commit.script hash) : RoundLeaf B (some env) (some hash)

/-- The message is the sighash of an input of a round's transaction. -/
def OwnSighash (B : Bitcoin) (round : Round) (i : ℕ) (msg : Bytes) : Prop :=
  ∃ psbt leafHash, B.psbtFromHex round.psbt = some psbt ∧ RoundLeaf B round.env leafHash ∧
    IsSighash B psbt i leafHash msg

/-- The leaf hash that the agent uses is the one of its own script. -/
theorem roundLeaf_iff {psbtHex : String} {arg : Option EnvelopeArg} {env : Option Envelope}
    (h : envelopeContext B C psbtHex arg = .ok env) {leafHash : Option Bytes} :
    RoundLeaf B env leafHash ↔ leafHash = roundLeafHash env := by
  have hspec : ∀ e, env = some e → tapleafHash B e.commit.script = some e.commit.leafHash := by
    rintro e rfl
    unfold envelopeContext at h
    cases arg with
    | none => cases h
    | some arg =>
      simp only at h
      cases hcommit : deriveEnvelopeCommit B C.internalXOnly arg.script C.recoveryLeaves with
      | none => simp [hcommit] at h
      | some commit =>
        cases hpsbt : B.psbtFromHex psbtHex with
        | none => simp [hcommit, hpsbt] at h
        | some psbt =>
          cases hrole : classifyEnvelopeRole B psbt commit with
          | none => simp [hcommit, hpsbt, hrole, deny] at h
          | some role =>
            simp only [hcommit, hpsbt, hrole, Except.ok.injEq, Option.some.injEq] at h
            subst h
            exact (deriveEnvelopeCommit_spec hcommit).leafHash
  constructor
  · intro hleaf
    cases hleaf with
    | keyPath env hrole =>
      cases env with
      | none => rfl
      | some e => exact (if_neg (hrole e rfl)).symm
    | reveal e hash hrole hhash =>
      have hhash' := (hspec e rfl).symm.trans (tapleafHash_iff.2 hhash)
      rw [roundLeafHash, if_pos hrole, ← hhash']
  · rintro rfl
    cases env with
    | none => exact .keyPath none (by simp)
    | some e =>
      by_cases hrole : e.role = .reveal
      · rw [roundLeafHash, if_pos hrole]
        exact .reveal e _ hrole (tapleafHash_iff.1 (hspec e rfl))
      · rw [roundLeafHash, if_neg hrole]
        refine .keyPath _ fun e' he' => ?_
        cases he'
        exact hrole

/-! ### The nonces of a round -/

/-- The nonces that a round may sign with. -/
def Round.nonces (round : Round) : List ℕ := round.nonceByIndex.map Prod.snd

theorem mem_assignNonces {first n : ℕ} {indexes : List Js}
    (h : n ∈ (assignNonces first indexes).map Prod.snd) :
    first ≤ n ∧ n < first + indexes.length := by
  unfold assignNonces at h
  rw [List.map_reverse, List.mem_reverse, List.map_map] at h
  obtain ⟨e, he, rfl⟩ := List.mem_map.1 h
  obtain ⟨hle, hlt, -⟩ := List.mem_zipIdx he
  exact ⟨hle, hlt⟩

theorem nodup_assignNonces (first : ℕ) (indexes : List Js) :
    ((assignNonces first indexes).map Prod.snd).Nodup := by
  unfold assignNonces
  rw [List.map_reverse, List.nodup_reverse, List.map_map]
  change ((indexes.zipIdx first).map Prod.snd).Nodup
  rw [List.zipIdx_map_snd]
  exact List.nodup_range'

theorem mem_indexes_of_assigned {first n : ℕ} {indexes : List Js} {key : String}
    (h : (key, n) ∈ assignNonces first indexes) : ∃ x ∈ indexes, x.toText = key := by
  unfold assignNonces at h
  rw [List.mem_reverse] at h
  obtain ⟨⟨x, i⟩, he, hkey⟩ := List.mem_map.1 h
  cases hkey
  obtain ⟨-, -, hx⟩ := List.mem_zipIdx he
  exact ⟨x, hx ▸ List.getElem_mem _, rfl⟩

/-- A round as `startRound` makes it. -/
structure Round.WellFormed (B : Bitcoin) (C : SigningClient) (round : Round) : Prop where
  distinct : round.nonces.Nodup
  asked : ∀ e ∈ round.nonceByIndex, ∃ x ∈ round.indexes, x.toText = e.1
  derived : ∃ arg, envelopeContext B C round.psbt arg = .ok round.env

/-- A nonce of a round belongs to one text of an index. -/
theorem Round.WellFormed.key_eq {round : Round} (h : round.WellFormed B C) {k k' : String} {n : ℕ}
    (hk : round.nonceByIndex.lookup k = some n) (hk' : round.nonceByIndex.lookup k' = some n) :
    k = k' := by
  have heq := List.inj_on_of_nodup_map h.distinct (Loop.mem_of_lookup hk)
    (Loop.mem_of_lookup hk') rfl
  exact congrArg Prod.fst heq

theorem Round.WellFormed.ownSighash_iff {round : Round} (h : round.WellFormed B C) {i : ℕ}
    {msg : Bytes} :
    OwnSighash B round i msg ↔ clientSighash B round.psbt round.env i = some msg := by
  obtain ⟨arg, harg⟩ := h.derived
  rw [clientSighash_iff]
  constructor
  · rintro ⟨psbt, leafHash, hpsbt, hleaf, hmsg⟩
    exact ⟨psbt, hpsbt, (roundLeaf_iff harg).1 hleaf ▸ hmsg⟩
  · rintro ⟨psbt, hpsbt, hmsg⟩
    exact ⟨psbt, _, hpsbt, (roundLeaf_iff harg).2 rfl, hmsg⟩

/-! ### One signature of an answer -/

/-- A partial is over the sighash of an input that the agent asked for, with the nonce of this input
and the tweaks of the round. -/
structure OwnPartial (B : Bitcoin) (C : SigningClient) (a : AgentPartial) : Prop where
  asked : ∃ x ∈ a.round.indexes, ∃ index, inputIndex index = some a.index ∧
    x.toText = index.toText ∧ a.round.nonceByIndex.lookup index.toText = some a.nonce
  message : OwnSighash B a.round a.index a.msg
  tweaks : a.tweaks = envelopeRoundTweaks a.round.env C.tweaks

theorem orDeny_eq_ok {α : Type} {reason : String} {x : Option α} {a : α} :
    orDeny reason x = .ok a ↔ x = some a := by
  cases x with
  | none => simp [orDeny, deny]
  | some b => simp [orDeny]

theorem clientBytes_eq_ok {x : Js} {bytes : Bytes} :
    clientBytes x = .ok bytes ↔ ∃ text, x = .str text ∧ hexDecode text = bytes := by
  cases x <;> simp [clientBytes]

theorem inputIndex_eq_some {index : Js} {i : ℕ} :
    inputIndex index = some i ↔ index = .num (.fin i) := by
  constructor
  · intro h
    unfold inputIndex at h
    split at h
    · next q =>
      split_ifs at h with hq
      have hnum : (q.num.toNat : ℤ) = q.num := Int.toNat_of_nonneg (Rat.num_nonneg.2 hq.2)
      rw [← Option.some.inj h, ← Rat.coe_int_num_of_den_eq_one hq.1]
      exact congrArg (fun z : ℤ => Js.num (.fin (z : ℚ))) hnum.symm
    · cases h
  · rintro rfl
    simp [inputIndex]

theorem assertMsgMatchesPsbt_eq_ok {round : Round} {index : Js} {msg : Bytes} {i : ℕ} :
    assertMsgMatchesPsbt B round index msg = .ok i ↔
      inputIndex index = some i ∧ clientSighash B round.psbt round.env i = some msg := by
  unfold assertMsgMatchesPsbt
  constructor
  · intro h
    split at h
    · cases h
    · next j hidx =>
      split at h
      · cases h
      · next expected hmsg =>
        split_ifs at h with heq
        · cases h
          exact ⟨hidx, by rw [hmsg, heq]⟩
        · cases h
  · rintro ⟨hidx, hmsg⟩
    simp [hidx, hmsg]

/-- What the agent has read before a nonce is used. -/
structure ReadSpec (B : Bitcoin) (G : MuSig) (C : SigningClient) (round : Round) (entry : Js)
    (r : ReadSignature G) : Prop where
  index : entry.get "index" = some r.index
  own : r.own.round = round
  nonce : round.nonceByIndex.lookup r.index.toText = some r.own.nonce
  input : inputIndex r.index = some r.own.index
  message : clientSighash B round.psbt round.env r.own.index = some r.own.msg
  tweaks : r.own.tweaks = envelopeRoundTweaks round.env C.tweaks
  session : ∃ coNonce aggNonce,
    G.aggregateNonces (G.publicNonce r.own.nonce) coNonce = some aggNonce ∧
      G.startSession aggNonce r.own.msg r.own.tweaks = some r.session

theorem readSignature_ok {round : Round} {entry : Js} {r : ReadSignature G}
    (h : readSignature B G C round entry = .ok r) : ReadSpec B G C round entry r := by
  unfold readSignature at h
  obtain ⟨index, hindex, h⟩ := Checks.bind_eq_ok.1 h
  obtain ⟨nonce, hnonce, h⟩ := Checks.bind_eq_ok.1 h
  obtain ⟨msg, -, h⟩ := Checks.bind_eq_ok.1 h
  obtain ⟨i, hi, h⟩ := Checks.bind_eq_ok.1 h
  obtain ⟨coNonce, -, h⟩ := Checks.bind_eq_ok.1 h
  obtain ⟨aggNonce, hagg, h⟩ := Checks.bind_eq_ok.1 h
  obtain ⟨session, hsession, h⟩ := Checks.bind_eq_ok.1 h
  cases h
  obtain ⟨hinput, hmsg⟩ := assertMsgMatchesPsbt_eq_ok.1 hi
  refine ⟨?_, rfl, orDeny_eq_ok.1 hnonce, hinput, hmsg, rfl, coNonce, aggNonce,
    orDeny_eq_ok.1 hagg, orDeny_eq_ok.1 hsession⟩
  cases hget : entry.get "index" with
  | none => rw [hget] at hindex; cases hindex
  | some x => rw [hget] at hindex; cases hindex; rfl

theorem ReadSpec.ownPartial {round : Round} {entry : Js} {r : ReadSignature G}
    (hwf : round.WellFormed B C) (h : ReadSpec B G C round entry r) : OwnPartial B C r.own := by
  obtain ⟨x, hx, hkey⟩ := hwf.asked _ (Loop.mem_of_lookup h.nonce)
  refine ⟨⟨x, ?_, r.index, h.input, hkey, ?_⟩, ?_, ?_⟩
  · rw [h.own]; exact hx
  · rw [h.own]; exact h.nonce
  · rw [h.own]; exact hwf.ownSighash_iff.2 h.message
  · rw [h.own]; exact h.tweaks

/-- A final signature is aggregated in a session over the sighash of its input, from the agent's own
partial and a valid one of the daemon. -/
structure VerifiedSignature (B : Bitcoin) (G : MuSig) (C : SigningClient) (round : Round)
    (σ : InputSignature) : Prop where
  message : ∃ i, inputIndex σ.index = some i ∧ OwnSighash B round i σ.msg
  aggregated : ∃ nonce coNonce aggNonce session agentSig sig,
    round.nonceByIndex.lookup σ.index.toText = some nonce ∧
    G.aggregateNonces (G.publicNonce nonce) coNonce = some aggNonce ∧
    G.startSession aggNonce σ.msg (envelopeRoundTweaks round.env C.tweaks) = some session ∧
    G.partialSign nonce session = some agentSig ∧ G.partialValid session sig ∧
    G.aggregateSignatures agentSig sig session = some σ.signature

/-- One signature of an answer, with the nonce that it takes, when this nonce is still there. -/
def completeEntry (B : Bitcoin) (G : MuSig) (C : SigningClient) (round : Round) (entry : Js) :
    Except Denial (ℕ × InputSignature) := do
  let r ← readSignature B G C round entry
  let agentSig ← orDeny "PARTIAL_SIGN_FAILED" (G.partialSign r.own.nonce r.session)
  let signature ← aggregateWith G entry agentSig r.session
  return (r.own.nonce, ⟨r.index, signature, r.own.msg⟩)

theorem completeEntry_iff {round : Round} {entry : Js} {n : ℕ} {σ : InputSignature} :
    completeEntry B G C round entry = .ok (n, σ) ↔
      ∃ r agentSig signature, readSignature B G C round entry = .ok r ∧
        G.partialSign r.own.nonce r.session = some agentSig ∧
        aggregateWith G entry agentSig r.session = .ok signature ∧ n = r.own.nonce ∧
        σ = ⟨r.index, signature, r.own.msg⟩ := by
  unfold completeEntry
  constructor
  · intro h
    obtain ⟨r, hr, h⟩ := Checks.bind_eq_ok.1 h
    obtain ⟨agentSig, hsign, h⟩ := Checks.bind_eq_ok.1 h
    obtain ⟨signature, hagg, h⟩ := Checks.bind_eq_ok.1 h
    cases h
    exact ⟨r, agentSig, signature, hr, orDeny_eq_ok.1 hsign, hagg, rfl, rfl⟩
  · rintro ⟨r, agentSig, signature, hr, hsign, hagg, rfl, rfl⟩
    exact Checks.bind_eq_ok.2 ⟨r, hr, Checks.bind_eq_ok.2 ⟨agentSig, orDeny_eq_ok.2 hsign,
      Checks.bind_eq_ok.2 ⟨signature, hagg, rfl⟩⟩⟩

theorem completeEntry_ok {round : Round} (hwf : round.WellFormed B C) {entry : Js} {n : ℕ}
    {σ : InputSignature} (h : completeEntry B G C round entry = .ok (n, σ)) :
    entry.get "index" = some σ.index ∧ round.nonceByIndex.lookup σ.index.toText = some n ∧
      VerifiedSignature B G C round σ := by
  obtain ⟨r, agentSig, signature, hr, hsign, hagg, rfl, rfl⟩ := completeEntry_iff.1 h
  have hspec := readSignature_ok hr
  unfold aggregateWith at hagg
  obtain ⟨sig, -, hagg⟩ := Checks.bind_eq_ok.1 hagg
  have hagg' := orDeny_eq_ok.1 hagg
  obtain ⟨coNonce, aggNonce, hnonces, hsession⟩ := hspec.session
  rw [hspec.tweaks] at hsession
  exact ⟨hspec.index, hspec.nonce, ⟨_, hspec.input, hwf.ownSighash_iff.2 hspec.message⟩, _, coNonce, aggNonce, r.session,
    agentSig, sig, hspec.nonce, hnonces, hsession, hsign, G.aggregate_valid _ _ _ _ hagg', hagg'⟩

/-! ### The signatures of an answer -/

/-- One signature is taken when its nonce is still there. -/
theorem signEntry_of_complete {round : Round} {entry : Js} {s : SigningState} {n : ℕ}
    {σ : InputSignature} (h : completeEntry B G C round entry = .ok (n, σ)) (hn : n ∉ s.consumed) :
    ∃ s', signEntry B G C round entry s = (.ok σ, s') ∧ s'.consumed = s.consumed ++ [n] := by
  obtain ⟨r, agentSig, signature, hr, hsign, hagg, rfl, rfl⟩ := completeEntry_iff.1 h
  unfold signEntry
  simp only [hr, hn, if_false, hsign, hagg]
  exact ⟨_, rfl, rfl⟩

theorem complete_of_signEntry {round : Round} {entry : Js} {s s' : SigningState}
    {σ : InputSignature} (h : signEntry B G C round entry s = (.ok σ, s')) :
    ∃ n, completeEntry B G C round entry = .ok (n, σ) ∧ n ∉ s.consumed ∧
      s'.consumed = s.consumed ++ [n] := by
  unfold signEntry at h
  cases hr : readSignature B G C round entry with
  | error d => simp [hr] at h
  | ok r =>
    by_cases hused : r.own.nonce ∈ s.consumed
    · simp [hr, hused, deny] at h
    · cases hsign : G.partialSign r.own.nonce r.session with
      | none => simp [hr, hused, hsign, deny] at h
      | some agentSig =>
        cases hagg : aggregateWith G entry agentSig r.session with
        | error d => simp [hr, hused, hsign, hagg] at h
        | ok signature =>
          simp only [hr, hused, if_false, hsign, hagg, Prod.mk.injEq, Except.ok.injEq] at h
          obtain ⟨rfl, rfl⟩ := h
          exact ⟨r.own.nonce,
            completeEntry_iff.2 ⟨r, agentSig, signature, hr, hsign, hagg, rfl, rfl⟩, hused, rfl⟩

/-- **When an answer is taken**: every signature completes, and no nonce is used twice. -/
theorem signEntries_eq_ok {round : Round} {entries : List Js} {s : SigningState}
    {out : List InputSignature} :
    (signEntries B G C round entries s).1 = .ok out ↔
      ∃ l : List (ℕ × InputSignature), entries.mapM (completeEntry B G C round) = .ok l ∧
        l.map Prod.snd = out ∧ (l.map Prod.fst).Nodup ∧ ∀ n ∈ l.map Prod.fst, n ∉ s.consumed := by
  induction entries generalizing s out with
  | nil =>
    rw [signEntries]
    constructor
    · intro h
      cases h
      exact ⟨[], rfl, rfl, List.nodup_nil, by simp⟩
    · rintro ⟨l, hl, rfl, -, -⟩
      cases hl
      rfl
  | cons entry entries ih =>
    rw [signEntries, List.mapM_cons]
    constructor
    · intro h
      split at h
      · cases h
      · next σ s' heq =>
        obtain ⟨n, hcomplete, hn, hs'⟩ := complete_of_signEntry heq
        split at h
        · cases h
        · next σs s'' heq' =>
          cases h
          obtain ⟨l, hl, rfl, hnodup, hfresh⟩ := ih.1 (congrArg Prod.fst heq')
          -- The rest was signed with `n` consumed already.
          have hnotin : n ∉ l.map Prod.fst := fun hmem =>
            hfresh n hmem (by rw [hs']; simp)
          refine ⟨(n, σ) :: l, Checks.bind_eq_ok.2 ⟨_, hcomplete, Checks.bind_eq_ok.2 ⟨l, hl, rfl⟩⟩,
            rfl, List.nodup_cons.2 ⟨hnotin, hnodup⟩, ?_⟩
          rintro m hm
          rcases List.mem_cons.1 hm with rfl | hm
          · exact hn
          · intro hmem
            exact hfresh m hm (by rw [hs']; exact List.mem_append_left _ hmem)
    · rintro ⟨l, hl, rfl, hnodup, hfresh⟩
      obtain ⟨⟨n, σ⟩, hcomplete, hl⟩ := Checks.bind_eq_ok.1 hl
      obtain ⟨l', hl', hl⟩ := Checks.bind_eq_ok.1 hl
      cases hl
      rw [List.map_cons, List.nodup_cons] at hnodup
      obtain ⟨s', heq, hs'⟩ := signEntry_of_complete hcomplete (hfresh n (by simp))
      -- The state after the first entry has consumed its nonce and no other.
      have hrest : (signEntries B G C round entries s').1 = .ok (l'.map Prod.snd) := by
        refine ih.2 ⟨l', hl', rfl, hnodup.2, fun m hm hmem => ?_⟩
        rw [hs', List.mem_append, List.mem_singleton] at hmem
        rcases hmem with hmem | rfl
        · exact hfresh m (by simp [hm]) hmem
        · exact hnodup.1 hm
      simp only [heq]
      split
      · next d s'' heq' => rw [heq'] at hrest; cases hrest
      · next σs s'' heq' =>
        rw [heq'] at hrest
        cases hrest
        rfl

/-- What a part of an answer changes: it uses nonces of its round that were there, each once. -/
structure Signs (B : Bitcoin) (C : SigningClient) (round : Round) (s s' : SigningState) : Prop where
  nonces : s'.nonces = s.nonces
  pending : s'.pending = s.pending
  consumed : ∃ used, s'.consumed = s.consumed ++ used ∧ used.Nodup ∧
    ∀ n ∈ used, n ∉ s.consumed ∧ n ∈ round.nonces
  partials : ∃ made, s'.partials = s.partials ++ made ∧ (made.map AgentPartial.nonce).Nodup ∧
    ∀ a ∈ made, OwnPartial B C a ∧ a.nonce ∉ s.consumed ∧ a.nonce ∈ s'.consumed

theorem Signs.refl (round : Round) (s : SigningState) : Signs B C round s s where
  nonces := rfl
  pending := rfl
  consumed := ⟨[], by simp⟩
  partials := ⟨[], by simp⟩

theorem Signs.trans {round : Round} {s t u : SigningState} (h : Signs B C round s t)
    (h' : Signs B C round t u) : Signs B C round s u := by
  obtain ⟨used, hused, hnodup, hall⟩ := h.consumed
  obtain ⟨used', hused', hnodup', hall'⟩ := h'.consumed
  obtain ⟨made, hmade, hmnodup, hmall⟩ := h.partials
  obtain ⟨made', hmade', hmnodup', hmall'⟩ := h'.partials
  refine ⟨h'.nonces.trans h.nonces, h'.pending.trans h.pending,
    ⟨used ++ used', by rw [hused', hused, List.append_assoc], ?_, ?_⟩,
    ⟨made ++ made', by rw [hmade', hmade, List.append_assoc], ?_, ?_⟩⟩
  · refine List.nodup_append.2 ⟨hnodup, hnodup', ?_⟩
    rintro n hn m hm rfl
    refine (hall' n hm).1 ?_
    rw [hused]
    exact List.mem_append_right _ hn
  · intro n hn
    rcases List.mem_append.1 hn with hn | hn
    · exact hall n hn
    · refine ⟨fun hmem => (hall' n hn).1 ?_, (hall' n hn).2⟩
      rw [hused]
      exact List.mem_append_left _ hmem
  · rw [List.map_append]
    refine List.nodup_append.2 ⟨hmnodup, hmnodup', ?_⟩
    rintro n hn m hm rfl
    obtain ⟨a, ha, rfl⟩ := List.mem_map.1 hn
    obtain ⟨b, hb, hab⟩ := List.mem_map.1 hm
    exact (hmall' b hb).2.1 (hab ▸ (hmall a ha).2.2)
  · intro a ha
    rcases List.mem_append.1 ha with ha | ha
    · obtain ⟨hown, hnew, hin⟩ := hmall a ha
      refine ⟨hown, hnew, ?_⟩
      rw [hused']
      exact List.mem_append_left _ hin
    · obtain ⟨hown, hnew, hin⟩ := hmall' a ha
      refine ⟨hown, fun hmem => hnew ?_, hin⟩
      rw [hused]
      exact List.mem_append_left _ hmem

theorem signEntry_signs {round : Round} (hwf : round.WellFormed B C) (entry : Js) (s : SigningState) :
    Signs B C round s (signEntry B G C round entry s).2 := by
  unfold signEntry
  cases hr : readSignature B G C round entry with
  | error d => exact .refl round s
  | ok r =>
    have hspec := readSignature_ok hr
    by_cases hused : r.own.nonce ∈ s.consumed
    · simp only [hused, if_true]
      exact .refl round s
    · simp only [hused, if_false]
      have hmine : r.own.nonce ∈ round.nonces :=
        List.mem_map.2 ⟨_, Loop.mem_of_lookup hspec.nonce, rfl⟩
      have hconsumed : ∃ used, s.consumed ++ [r.own.nonce] = s.consumed ++ used ∧ used.Nodup ∧
          ∀ n ∈ used, n ∉ s.consumed ∧ n ∈ round.nonces := by
        refine ⟨[r.own.nonce], rfl, by simp, fun n hn => ?_⟩
        rw [List.mem_singleton.1 hn]
        exact ⟨hused, hmine⟩
      have hmade : ∃ made, s.partials ++ [r.own] = s.partials ++ made ∧
          (made.map AgentPartial.nonce).Nodup ∧ ∀ a ∈ made, OwnPartial B C a ∧
            a.nonce ∉ s.consumed ∧ a.nonce ∈ s.consumed ++ [r.own.nonce] := by
        refine ⟨[r.own], rfl, by simp, fun a ha => ?_⟩
        rw [List.mem_singleton.1 ha]
        exact ⟨hspec.ownPartial hwf, hused, by simp⟩
      cases hsign : G.partialSign r.own.nonce r.session with
      | none => exact ⟨rfl, rfl, hconsumed, ⟨[], by simp⟩⟩
      | some agentSig =>
        simp only
        cases hagg : aggregateWith G entry agentSig r.session with
        | error d => exact ⟨rfl, rfl, hconsumed, hmade⟩
        | ok signature => exact ⟨rfl, rfl, hconsumed, hmade⟩

theorem signEntries_signs {round : Round} (hwf : round.WellFormed B C) (entries : List Js)
    (s : SigningState) : Signs B C round s (signEntries B G C round entries s).2 := by
  induction entries generalizing s with
  | nil => exact .refl round s
  | cons entry entries ih =>
    have hone := signEntry_signs (B := B) (G := G) (C := C) hwf entry s
    rw [signEntries]
    split
    · next s' heq =>
      rw [heq] at hone
      exact hone
    · next σ s' heq =>
      rw [heq] at hone
      have hrest := hone.trans (ih s')
      split
      · next s'' heq' => rw [heq'] at hrest; exact hrest
      · next l s'' heq' => rw [heq'] at hrest; exact hrest

theorem answerRound_signs {round : Round} (hwf : round.WellFormed B C) (res : Js) (s : SigningState) :
    Signs B C round s (answerRound B G C round res s).2 := by
  unfold answerRound
  split
  · exact .refl round s
  · exact signEntries_signs hwf _ s

/-! ### Rounds of one process -/

/-- What every interleaving of rounds keeps. -/
structure SigningInv (B : Bitcoin) (C : SigningClient) (s : SigningState) : Prop where
  below : ∀ n ∈ s.consumed, n < s.nonces
  pendingBelow : ∀ round ∈ s.pending, ∀ n ∈ round.nonces, n < s.nonces
  fresh : ∀ round ∈ s.pending, ∀ n ∈ round.nonces, n ∉ s.consumed
  apart : s.pending.Pairwise fun r r' => ∀ n ∈ r.nonces, n ∉ r'.nonces
  wellFormed : ∀ round ∈ s.pending, round.WellFormed B C
  own : ∀ a ∈ s.partials, OwnPartial B C a
  signed : ∀ a ∈ s.partials, a.nonce ∈ s.consumed
  once : (s.partials.map AgentPartial.nonce).Nodup

theorem SigningInv.init : SigningInv B C {} where
  below := by simp
  pendingBelow := by simp
  fresh := by simp
  apart := .nil
  wellFormed := by simp
  own := by simp
  signed := by simp
  once := by simp

theorem SigningInv.call {s : SigningState} (h : SigningInv B C s) (call : SignCall) :
    SigningInv B C (startRound B C call s).2 := by
  unfold startRound
  split
  · exact h
  · next env henv =>
    set indexes := call.inputs.indexes
    set round : Round :=
      ⟨call.psbt, env, indexes, assignNonces s.nonces indexes, call.inputs.only⟩ with hround
    have hnonces : ∀ n ∈ round.nonces, s.nonces ≤ n ∧ n < s.nonces + indexes.length :=
      fun n hn => mem_assignNonces hn
    have hcase : ∀ r ∈ s.pending ++ [round], r ∈ s.pending ∨ r = round := by simp
    refine ⟨fun n hn => ?_, ?_, ?_, ?_, ?_, h.own, h.signed, h.once⟩
    · exact Nat.lt_add_right _ (h.below n hn)
    · rintro r hr n hn
      rcases hcase r hr with hr | rfl
      · exact Nat.lt_add_right _ (h.pendingBelow r hr n hn)
      · exact (hnonces n hn).2
    · rintro r hr n hn hmem
      rcases hcase r hr with hr | rfl
      · exact h.fresh r hr n hn hmem
      · have := h.below n hmem
        have := (hnonces n hn).1
        omega
    · refine List.pairwise_append.2 ⟨h.apart, List.pairwise_singleton _ _, ?_⟩
      rintro r hr r' hr' n hn hn'
      rw [List.mem_singleton.1 hr'] at hn'
      have := h.pendingBelow r hr n hn
      have := (hnonces n hn').1
      omega
    · rintro r hr
      rcases hcase r hr with hr | rfl
      · exact h.wellFormed r hr
      · exact ⟨nodup_assignNonces _ _, fun e he => mem_indexes_of_assigned he, _, henv⟩

/-- The rounds that still wait share no nonce with the one that is answered. -/
theorem SigningInv.apart_erased {s : SigningState} (h : SigningInv B C s) {i : ℕ} {round : Round}
    (hround : s.pending[i]? = some round) {r : Round} (hr : r ∈ s.pending.eraseIdx i) :
    r ∈ s.pending ∧ ∀ n ∈ round.nonces, n ∉ r.nonces := by
  obtain ⟨hi, rfl⟩ := List.getElem?_eq_some_iff.1 hround
  obtain ⟨j, hj, hne, rfl⟩ := List.mem_eraseIdx_iff_getElem.1 hr
  refine ⟨List.getElem_mem hj, fun n hn hn' => ?_⟩
  have hpair := List.pairwise_iff_getElem.1 h.apart
  rcases Nat.lt_or_gt_of_ne hne with hlt | hlt
  · exact hpair j i hj hi hlt n hn' hn
  · exact hpair i j hi hj hlt n hn hn'

theorem SigningInv.answer {s : SigningState} (h : SigningInv B C s) {i : ℕ} {round : Round}
    (hround : s.pending[i]? = some round) (res : Js) :
    SigningInv B C (answerRound B G C round res (s.take i)).2 := by
  have hmem : round ∈ s.pending := List.mem_of_getElem? hround
  have hsigns := answerRound_signs (B := B) (G := G) (C := C) (h.wellFormed _ hmem) res (s.take i)
  obtain ⟨used, hused, -, husedAll⟩ := hsigns.consumed
  obtain ⟨made, hmade, hmnodup, hmall⟩ := hsigns.partials
  -- what the answer reads of the state besides the rounds that wait
  have hconsumed : (s.take i).consumed = s.consumed := rfl
  have hpartials : (s.take i).partials = s.partials := rfl
  rw [hconsumed] at hused husedAll hmall
  rw [hpartials] at hmade
  have hrest : ∀ r ∈ (answerRound B G C round res (s.take i)).2.pending,
      r ∈ s.pending ∧ ∀ n ∈ round.nonces, n ∉ r.nonces := by
    intro r hr
    rw [hsigns.pending] at hr
    exact h.apart_erased hround hr
  refine ⟨?_, ?_, ?_, ?_, fun r hr => h.wellFormed r (hrest r hr).1, ?_, ?_, ?_⟩
  · intro n hn
    rw [hused, List.mem_append] at hn
    rw [hsigns.nonces]
    rcases hn with hn | hn
    · exact h.below n hn
    · exact h.pendingBelow _ hmem n (husedAll n hn).2
  · intro r hr n hn
    rw [hsigns.nonces]
    exact h.pendingBelow r (hrest r hr).1 n hn
  · intro r hr n hn hmem'
    rw [hused, List.mem_append] at hmem'
    rcases hmem' with hmem' | hmem'
    · exact h.fresh r (hrest r hr).1 n hn hmem'
    · exact (hrest r hr).2 n (husedAll n hmem').2 hn
  · rw [hsigns.pending]
    exact h.apart.sublist (List.eraseIdx_sublist _ _)
  · intro a ha
    rw [hmade, List.mem_append] at ha
    rcases ha with ha | ha
    · exact h.own a ha
    · exact (hmall a ha).1
  · intro a ha
    rw [hmade, List.mem_append] at ha
    rcases ha with ha | ha
    · rw [hused]
      exact List.mem_append_left _ (h.signed a ha)
    · exact (hmall a ha).2.2
  · rw [hmade, List.map_append]
    refine List.nodup_append.2 ⟨h.once, hmnodup, ?_⟩
    rintro n hn m hm rfl
    obtain ⟨a, ha, rfl⟩ := List.mem_map.1 hn
    obtain ⟨b, hb, hab⟩ := List.mem_map.1 hm
    exact (hmall b hb).2.1 (hab ▸ h.signed a ha)

theorem SigningInv.step {s : SigningState} (h : SigningInv B C s) (event : SigningEvent) :
    SigningInv B C (signingStep B G C s event) := by
  cases event with
  | call call => exact h.call call
  | answer i res =>
    unfold signingStep
    simp only
    cases hround : s.pending[i]? with
    | none => exact h
    | some round => exact h.answer hround res

theorem signingInv_run (events : List SigningEvent) : SigningInv B C (signingRun B G C events) := by
  unfold signingRun
  induction events using List.reverseRecOn with
  | nil => exact .init
  | append_singleton events event ih =>
    rw [List.foldl_append]
    exact ih.step event

/-! ### The signatures of the requested inputs -/

/-- The text by which an entry of the answer names its input. -/
def entryKey (entry : Js) : String := (entry.field "index").toText

/-- One verified signature for each requested input, in order. -/
structure ExactlyRequested (B : Bitcoin) (G : MuSig) (C : SigningClient) (round : Round)
    (out : List InputSignature) : Prop where
  inputs : out.map (fun σ => σ.index.toText) = round.indexes.map Js.toText
  verified : ∀ σ ∈ out, VerifiedSignature B G C round σ

/-- A signature that is good for an input that was asked for: it is over the sighash of the input,
and the library makes a signature of its partial and the agent's, with the nonce of the input. -/
structure GoodPartial (B : Bitcoin) (G : MuSig) (C : SigningClient) (round : Round) (entry : Js)
    (i nonce : ℕ) (msg coNonce sig : Bytes) : Prop where
  index : entry.field "index" = .num (.fin i)
  asked : round.nonceByIndex.lookup (Js.num (.fin i)).toText = some nonce
  message : ∃ text, entry.field "msg" = .str text ∧ hexDecode text = msg
  publicNonce : ∃ text, entry.field "publicNonce" = .str text ∧ hexDecode text = coNonce
  partialSig : ∃ text, entry.field "sig" = .str text ∧ hexDecode text = sig
  sighash : OwnSighash B round i msg
  aggregates : ∃ aggNonce session agentSig signature,
    G.aggregateNonces (G.publicNonce nonce) coNonce = some aggNonce ∧
      G.startSession aggNonce msg (envelopeRoundTweaks round.env C.tweaks) = some session ∧
      G.partialSign nonce session = some agentSig ∧
      G.aggregateSignatures agentSig sig session = some signature

/-- An answer that approves, with signatures that are good for different inputs; for `sign` one, of
the input it asked for. -/
structure GoodAnswer (B : Bitcoin) (G : MuSig) (C : SigningClient) (round : Round) (res : Js)
    (entries : List Js) : Prop where
  approved : res.field "approved" = .bool true
  signatures : res.field "signatures" = .arr entries
  only : ∀ only, round.only = some only →
    ∃ entry, entries = [entry] ∧ entry.field "index" = .num (.fin only)
  good : ∀ entry ∈ entries, ∃ i nonce msg coNonce sig,
    GoodPartial B G C round entry i nonce msg coNonce sig
  once : (entries.map entryKey).Nodup

/-- The answer lists the requested inputs, in order, or it is not a good one. -/
def AnswersRequest (B : Bitcoin) (G : MuSig) (C : SigningClient) (round : Round) (res : Js) :
    Prop :=
  ∀ entries, GoodAnswer B G C round res entries →
    entries.map entryKey = round.indexes.map Js.toText

theorem get_of_field {x y : Js} {k : String} (h : x.field k = y) (hy : y ≠ .undefined) :
    x.get k = some y := by
  unfold Js.field at h
  cases hget : x.get k with
  | none => rw [hget] at h; exact absurd h.symm hy
  | some z => rw [hget] at h; rw [← h]; rfl

/-- The signatures that complete are the good ones. -/
theorem completeEntry_isOk_iff {round : Round} (hwf : round.WellFormed B C) {entry : Js} :
    (completeEntry B G C round entry).isOk = true ↔ ∃ i nonce msg coNonce sig,
      GoodPartial B G C round entry i nonce msg coNonce sig := by
  constructor
  · intro h
    cases hc : completeEntry B G C round entry with
    | error d => rw [hc] at h; cases h
    | ok c =>
      obtain ⟨r, agentSig, signature, hr, hsign, hagg, -, -⟩ :=
        completeEntry_iff.1 (show completeEntry B G C round entry = .ok (c.1, c.2) from hc)
      unfold readSignature at hr
      obtain ⟨index, hindex, hr⟩ := Checks.bind_eq_ok.1 hr
      obtain ⟨nonce, hnonce, hr⟩ := Checks.bind_eq_ok.1 hr
      obtain ⟨msg, hmsg, hr⟩ := Checks.bind_eq_ok.1 hr
      obtain ⟨i, hi, hr⟩ := Checks.bind_eq_ok.1 hr
      obtain ⟨coNonce, hco, hr⟩ := Checks.bind_eq_ok.1 hr
      obtain ⟨aggNonce, haggNonce, hr⟩ := Checks.bind_eq_ok.1 hr
      obtain ⟨session, hsession, hr⟩ := Checks.bind_eq_ok.1 hr
      cases hr
      unfold aggregateWith at hagg
      obtain ⟨sig, hsig, hagg⟩ := Checks.bind_eq_ok.1 hagg
      obtain ⟨hidx, hown⟩ := assertMsgMatchesPsbt_eq_ok.1 hi
      obtain rfl := inputIndex_eq_some.1 hidx
      have hfield : entry.field "index" = .num (.fin i) := by
        unfold Js.field
        cases hget : entry.get "index" with
        | none => rw [hget] at hindex; cases hindex
        | some x => rw [hget] at hindex; cases hindex; rfl
      exact ⟨i, nonce, msg, coNonce, sig, hfield, orDeny_eq_ok.1 hnonce, clientBytes_eq_ok.1 hmsg,
        clientBytes_eq_ok.1 hco, clientBytes_eq_ok.1 hsig, hwf.ownSighash_iff.2 hown, aggNonce,
        session, agentSig, signature, orDeny_eq_ok.1 haggNonce, orDeny_eq_ok.1 hsession, hsign,
        orDeny_eq_ok.1 hagg⟩
  · rintro ⟨i, nonce, msg, coNonce, sig, h⟩
    obtain ⟨aggNonce, session, agentSig, signature, haggNonce, hsession, hsign, hagg⟩ := h.aggregates
    have hread : readSignature B G C round entry = .ok ⟨.num (.fin i),
        ⟨round, nonce, i, msg, envelopeRoundTweaks round.env C.tweaks⟩, session⟩ := by
      unfold readSignature
      rw [get_of_field h.index (by simp)]
      refine Checks.bind_eq_ok.2 ⟨_, rfl, Checks.bind_eq_ok.2 ⟨nonce, orDeny_eq_ok.2 h.asked,
        Checks.bind_eq_ok.2 ⟨msg, clientBytes_eq_ok.2 h.message, Checks.bind_eq_ok.2 ⟨i, ?_,
        Checks.bind_eq_ok.2 ⟨coNonce, clientBytes_eq_ok.2 h.publicNonce, Checks.bind_eq_ok.2
        ⟨aggNonce, orDeny_eq_ok.2 haggNonce, Checks.bind_eq_ok.2
        ⟨session, orDeny_eq_ok.2 hsession, rfl⟩⟩⟩⟩⟩⟩⟩
      exact assertMsgMatchesPsbt_eq_ok.2
        ⟨inputIndex_eq_some.2 rfl, hwf.ownSighash_iff.1 h.sighash⟩
    have hwith : aggregateWith G entry agentSig session = .ok signature := by
      unfold aggregateWith
      exact Checks.bind_eq_ok.2 ⟨sig, clientBytes_eq_ok.2 h.partialSig, orDeny_eq_ok.2 hagg⟩
    rw [completeEntry_iff.2 ⟨_, agentSig, signature, hread, hsign, hwith, rfl, rfl⟩]
    rfl

theorem readAnswer_eq_ok {round : Round} {res : Js} {entries : List Js} :
    readAnswer round res = .ok entries ↔ res.field "approved" = .bool true ∧
      res.field "signatures" = .arr entries ∧ ∀ only, round.only = some only →
        ∃ entry, entries = [entry] ∧ entry.field "index" = .num (.fin only) := by
  unfold readAnswer
  constructor
  · intro h
    split at h
    · next happroved =>
      split at h
      · next listed hlisted =>
        cases honly : round.only with
        | none =>
          rw [honly] at h
          cases h
          exact ⟨happroved, hlisted, by simp⟩
        | some only =>
          rw [honly] at h
          change checkOnly only listed = .ok entries at h
          unfold checkOnly at h
          split at h
          · next entry =>
            split at h
            · cases h
            · next q hget =>
              split_ifs at h with hq
              · cases h
                refine ⟨happroved, hlisted, fun only' honly' => ⟨entry, rfl, ?_⟩⟩
                cases honly'
                rw [Js.field, hget, ← hq]
                rfl
              · cases h
            · cases h
          · cases h
      · cases h
    · cases h
  · rintro ⟨happroved, hlisted, honly⟩
    simp only [happroved, hlisted]
    cases ho : round.only with
    | none => rfl
    | some only =>
      obtain ⟨entry, rfl, hindex⟩ := honly only ho
      change checkOnly only [entry] = .ok [entry]
      simp [checkOnly, get_of_field hindex (by simp)]

/-- An answer is good when each of its signatures completes, for different inputs. -/
theorem goodAnswer_iff {round : Round} (hwf : round.WellFormed B C) {res : Js} {entries : List Js} :
    GoodAnswer B G C round res entries ↔ readAnswer round res = .ok entries ∧
      (∀ entry ∈ entries, (completeEntry B G C round entry).isOk = true) ∧
        (entries.map entryKey).Nodup := by
  simp only [readAnswer_eq_ok, completeEntry_isOk_iff hwf]
  constructor
  · intro h
    exact ⟨⟨h.approved, h.signatures, h.only⟩, h.good, h.once⟩
  · rintro ⟨⟨happroved, hlisted, honly⟩, hgood, honce⟩
    exact ⟨happroved, hlisted, honly, hgood, honce⟩

theorem completed_keys {round : Round} (hwf : round.WellFormed B C) {entries : List Js}
    {l : List (ℕ × InputSignature)} (h : entries.mapM (completeEntry B G C round) = .ok l) :
    l.map (fun c => c.2.index.toText) = entries.map entryKey ∧
      (l.map fun c => c.2.index.toText).map (fun k => round.nonceByIndex.lookup k) =
        (l.map Prod.fst).map some := by
  have hall := Checks.mapM_eq_ok.1 h
  induction hall with
  | nil => exact ⟨rfl, rfl⟩
  | cons hone hrest ih =>
    obtain ⟨hkeys, hnonces⟩ := ih (Checks.mapM_eq_ok.2 hrest)
    obtain ⟨hindex, hnonce, -⟩ := completeEntry_ok hwf hone
    constructor
    · simp only [List.map_cons, hkeys, entryKey, Js.field, hindex, Option.getD_some]
    · simp only [List.map_cons, hnonces, hnonce]

/-- Two entries name one input exactly when they take one nonce. -/
theorem nodup_nonces_iff {round : Round} (hwf : round.WellFormed B C) {entries : List Js}
    {l : List (ℕ × InputSignature)} (h : entries.mapM (completeEntry B G C round) = .ok l) :
    (l.map Prod.fst).Nodup ↔ (entries.map entryKey).Nodup := by
  obtain ⟨hkeys, hnonces⟩ := completed_keys hwf h
  rw [← hkeys]
  constructor
  · intro hnodup
    refine List.Nodup.of_map (fun k => round.nonceByIndex.lookup k) ?_
    rw [hnonces]
    exact hnodup.map (Option.some_injective _)
  · intro hnodup
    refine List.Nodup.of_map some ?_
    rw [← hnonces]
    refine hnodup.map_on ?_
    intro k hk k' hk' heq
    have hmem : round.nonceByIndex.lookup k ∈ (l.map Prod.fst).map some := by
      rw [← hnonces]
      exact List.mem_map_of_mem hk
    obtain ⟨n, -, hn⟩ := List.mem_map.1 hmem
    exact hwf.key_eq hn.symm (heq ▸ hn.symm)

/-- When a round that waits takes its answer, and with which signatures. -/
theorem answerRound_eq_ok {s : SigningState} (h : SigningInv B C s) {i : ℕ} {round : Round}
    (hround : s.pending[i]? = some round) {res : Js} {out : List InputSignature} :
    (answerRound B G C round res (s.take i)).1 = .ok out ↔
      ∃ entries l, GoodAnswer B G C round res entries ∧
        entries.mapM (completeEntry B G C round) = .ok l ∧ l.map Prod.snd = out := by
  have hmem : round ∈ s.pending := List.mem_of_getElem? hround
  have hwf := h.wellFormed _ hmem
  simp only [goodAnswer_iff hwf]
  unfold answerRound
  cases hread : readAnswer round res with
  | error d =>
    constructor
    · intro hok; cases hok
    · rintro ⟨entries, l, ⟨hok, -⟩, -⟩; cases hok
  | ok entries =>
    rw [signEntries_eq_ok]
    constructor
    · rintro ⟨l, hl, hout, hnodup, -⟩
      refine ⟨entries, l, ⟨rfl, ?_, (nodup_nonces_iff hwf hl).1 hnodup⟩, hl, hout⟩
      exact Checks.exists_mapM_iff.1 ⟨l, hl⟩
    · rintro ⟨entries', l, ⟨hok, -, honce⟩, hl, hout⟩
      cases hok
      refine ⟨l, hl, hout, (nodup_nonces_iff hwf hl).2 honce, ?_⟩
      intro n hn
      obtain ⟨c, hc, rfl⟩ := List.mem_map.1 hn
      obtain ⟨entry, -, hentry⟩ := Checks.exists_of_mem_mapM hl hc
      obtain ⟨-, hlookup, -⟩ := completeEntry_ok hwf (n := c.1) (σ := c.2) hentry
      exact h.fresh _ hmem _ (List.mem_map.2 ⟨_, Loop.mem_of_lookup hlookup, rfl⟩)

/-- **The signatures are those of the requested inputs** exactly when a good answer lists them. -/
theorem exactlyRequested_iff {s : SigningState} (h : SigningInv B C s) {i : ℕ} {round : Round}
    (hround : s.pending[i]? = some round) {res : Js} :
    (∀ out, (answerRound B G C round res (s.take i)).1 = .ok out →
      ExactlyRequested B G C round out) ↔ AnswersRequest B G C round res := by
  have hwf := h.wellFormed _ (List.mem_of_getElem? hround)
  constructor
  · intro hexact entries hgood
    obtain ⟨l, hl⟩ := Checks.exists_mapM_iff.2 ((goodAnswer_iff hwf).1 hgood).2.1
    have hinputs := (hexact _ ((answerRound_eq_ok h hround).2 ⟨entries, l, hgood, hl, rfl⟩)).inputs
    rw [← (completed_keys hwf hl).1, ← hinputs, List.map_map]
    rfl
  · intro hanswers out hout
    obtain ⟨entries, l, hgood, hl, rfl⟩ := (answerRound_eq_ok h hround).1 hout
    refine ⟨?_, fun σ hσ => ?_⟩
    · rw [← hanswers entries hgood, ← (completed_keys hwf hl).1, List.map_map]
      rfl
    · obtain ⟨c, hc, rfl⟩ := List.mem_map.1 hσ
      obtain ⟨entry, -, hentry⟩ := Checks.exists_of_mem_mapM hl hc
      exact (completeEntry_ok hwf (n := c.1) (σ := c.2) hentry).2.2

/-- **Both halves of a round agree.**  The agent derives by itself the message and the tweaks under
which the daemon signs each input, and they are those that its output asks for.  Over all rounds the
agent signs only sighashes of inputs that it asked for, each with the nonce of its input and no nonce
twice.  What a call returns are verified signatures of the requested inputs, in order, exactly when a
good answer lists these inputs, in order. -/
theorem cosign_round_iff (H : Host) (M : MathJs) (D : Decoder) (L : KeyLibrary B)
    (keys : AccountKeys) (tweaks : Option (List Bytes)) (self : CoSigner B) (G : MuSig)
    (C : SigningClient) (hself : self.MadeFrom L keys) (hC : signingClient L keys tweaks = some C)
    (htweaks : keys.recoveryPublicKey = none → tweaks.getD [] = []) :
    (∀ req approval p psbtHex arg, Approves H M D self req approval →
      prepareRequest D self req = .ok p → B.psbtFromHex psbtHex = some p.psbt →
      arg.map EnvelopeArg.script = req.envelope.map EnvelopeArg.script →
      envelopeContext B C psbtHex arg = .ok p.env ∧
        ∀ σ ∈ approval.signatures, Agreement L keys C psbtHex p σ) ∧
    ∀ events, (∀ a ∈ (signingRun B G C events).partials, OwnPartial B C a) ∧
      ((signingRun B G C events).partials.map AgentPartial.nonce).Nodup ∧
      ∀ i round res, (signingRun B G C events).pending[i]? = some round →
        ((∀ out, (answerRound B G C round res ((signingRun B G C events).take i)).1 = .ok out →
          ExactlyRequested B G C round out) ↔ AnswersRequest B G C round res) := by
  have hacc := sameAccount_of_keys hself hC htweaks
  constructor
  · intro req approval p psbtHex arg h hp hpsbt harg
    obtain ⟨-, -, henv⟩ := prepareRequest_inputs hp
    exact ⟨envelopeContext_eq hacc hpsbt harg henv, fun σ hσ => h.agrees hself hacc hp hpsbt hσ⟩
  · intro events
    have hinv := signingInv_run (B := B) (G := G) (C := C) events
    exact ⟨hinv.own, hinv.once, fun i round res hround => exactlyRequested_iff hinv hround⟩

/-! ### An answer that leaves the input out -/

/-- A library whose sessions say nothing, and which takes every partial. -/
def sampleMuSig : MuSig where
  Session := Unit
  publicNonce n := List.replicate 66 (UInt8.ofNat n)
  aggregateNonces a _ := some a
  startSession _ _ _ := some ()
  partialSign _ _ := some (List.replicate 32 1)
  partialValid _ _ := True
  aggregateSignatures _ _ _ := some (List.replicate 64 1)
  aggregate_valid _ _ _ _ _ := trivial

/-- The client of the pair whose envelope is cancelled. -/
def cancelClient : SigningClient := ⟨lastByte 1, [], none⟩

/-- `signAll` of the first input. -/
def sampleCall : SignCall := ⟨"70736274", none, .all (.arr [.num (.fin 0)])⟩

/-- An approval without signatures. -/
def emptyApproval : Js := .obj [("approved", .bool true), ("signatures", .arr [])]

/-- `signAll` returns without a signature. -/
theorem signAll_leavesOut : ∃ round,
    (signingRun cancelBitcoin sampleMuSig cancelClient [.call sampleCall]).pending = [round] ∧
      (answerRound cancelBitcoin sampleMuSig cancelClient round emptyApproval
        ((signingRun cancelBitcoin sampleMuSig cancelClient [.call sampleCall]).take 0)).1 =
          .ok [] ∧
      ¬ ExactlyRequested cancelBitcoin sampleMuSig cancelClient round [] := by
  refine ⟨_, rfl, rfl, fun h => ?_⟩
  cases h.inputs

/-- Both halves derive the cancel of an envelope, and sign it under the tweak of the commit. -/
theorem cosign_round_iff_cancel : ∃ approval,
    Approves plainHost plainMath cancelDecoder cancelCoSigner (cancelRound "02") approval ∧
      envelopeContext cancelBitcoin cancelClient "70736274" (some (.bytes cancelScript)) =
        .ok (cancelPrepared "02").env ∧
      (∀ σ ∈ approval.signatures,
        Agreement cancelLibrary cancelKeys cancelClient "70736274" (cancelPrepared "02") σ) ∧
      ∀ events, ∀ a ∈ (signingRun cancelBitcoin sampleMuSig cancelClient events).partials,
        OwnPartial cancelBitcoin cancelClient a := by
  obtain ⟨approval, h⟩ := approved_of_isOk (show (processUnlimited plainHost plainMath
    cancelDecoder cancelCoSigner (cancelRound "02")).isOk = true by decide +kernel)
  obtain ⟨hagree, hrun⟩ := cosign_round_iff plainHost plainMath cancelDecoder cancelLibrary
    cancelKeys none cancelCoSigner sampleMuSig cancelClient cancelCoSigner_madeFrom rfl fun _ => rfl
  obtain ⟨henv, hall⟩ := hagree _ approval _ "70736274" (some (.bytes cancelScript)) h
    (prepareRequest_cancelRound "02") rfl rfl
  exact ⟨approval, h, henv, hall, fun events => (hrun events).1⟩

end XChainSdk
