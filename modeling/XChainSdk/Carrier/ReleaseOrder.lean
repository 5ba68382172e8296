import XChainSdk.Carrier.Submission

/-!
# When signed bytes leave a submission

A submission signs one transaction or two.  The bytes of one may leave when all of them are
reconciled, bound and signed; an error before the first broadcast costs nothing, and one after it
says what was broadcast and what finishes it.

* `Atomic` : the three rules.
* `AtomicWhen` : what the callback and the remote sides must answer for the rules to hold: no
  chunked action gets to its reveal, and what fails after a broadcast names the transaction.
* `submitAction_atomic_iff` : the rules hold of a submission exactly then.
-/

namespace XChainSdk

open Js Traced

/-- The transactions of a submission that the encoder answered with `encoded`. -/
def requiredTxs (encoded : Js) : List SubmissionTx :=
  [.transaction] ++ (if (encoded.field "revealPsbt").truthy then [.envelopeReveal] else []) ++
    if isChunked encoded then [.chunkReveal] else []

/-- A transaction is reconciled, bound and signed. -/
structure TxPrepared (t : List SubmitEvent) (tx : SubmissionTx) : Prop where
  reconciled : .reconciled tx ∈ t
  bound : .bound tx ∈ t
  signed : ∃ signed, .signed tx signed ∈ t

/-- What leaves, leaves when all transactions are prepared. -/
def ReleasedPrepared (W : SubmitWorld) (before : List SubmitEvent) (e : SubmitEvent) : Prop :=
  e.releases = true → ∀ encoded, W.createTx = .ok encoded → ∀ tx ∈ requiredTxs encoded,
    TxPrepared before tx

/-- An error names a transaction that the network has, and brings the reveal that it has not. -/
structure ErrorCarries (t : List SubmitEvent) (e : Js) : Prop where
  txid : ∃ tx signed, .accepted tx signed ∈ t ∧ CarriesTxid e signed.txid
  reveal : ∀ tx signed, tx ≠ .transaction → .signed tx signed ∈ t → .accepted tx signed ∉ t →
    (e.field "details").field "revealTxHex" = str signed.txHex

/-- The rules of a submission. -/
structure Atomic (W : SubmitWorld) {α : Type} (x : Submit α) : Prop where
  ordered : x.Always (ReleasedPrepared W) []
  unreleased : ∀ e, x.outcome = .error e → (∀ tx txHex, .broadcast tx txHex ∉ x.trace) →
    ∀ t ∈ x.trace, t.releases = false
  carried : ∀ e, x.outcome = .error e → (∃ tx signed, .accepted tx signed ∈ x.trace) →
    ErrorCarries x.trace e

/-! ### The condition -/

section Condition

variable (H : Host) (S : SubmitCall) (W : SubmitWorld)

/-- A chunked action that asks for its reveal. -/
structure AsksReveal (s : Staged) : Prop where
  chunked : isChunked s.encoded = true
  announced : W.progress "p2sh_spending" = .ok ()
  pubkey : (S.encoderOpts.field "pubkey").truthy = true
  txid : s.signed.txid ≠ ""
  bytes : s.signed.txHex ≠ ""

/-- The first transaction of an action that is not chunked gets to its broadcast. -/
structure CommitSent (s : Staged) : Prop where
  staged : (stage S W).outcome = .ok s
  single : isChunked s.encoded = false
  announced : W.progress "broadcasting" = .ok ()
  bytes : s.signed.txHex ≠ ""

/-- Every transaction is broadcast. -/
structure AllSent (s : Staged) : Prop extends CommitSent S W s where
  commit : W.broadcastTx .transaction = .ok ()
  reveal : ∀ r, s.revealSigned = some r →
    W.progress "envelope_revealing" = .ok () ∧ r.txHex ≠ "" ∧
      W.broadcastTx .envelopeReveal = .ok ()

/-- The wait for the indexer ends well, when there is one. -/
def IndexerAnswers (txid : String) : Prop :=
  S.waitForIndexer = true → W.progress "waiting" = .ok () ∧ W.explorer = .ok () ∧
    (∃ indexed, waitForTxid txid (S.waitOptions H) W.polls none = .ok indexed) ∧
    W.progress "confirmed" = .ok ()

/-- The wait for the state of a contract ends well, when there is one. -/
def StateAnswers (gate : ContractGate) : Prop :=
  waitsForState gate = true → W.progress "waiting_contract_state" = .ok () ∧
    ∃ state, waitForContractState gate (gate.index S.actionData) (S.gateTimeout gate) W.explorer =
      .ok state

/-- The wait for a balance of a contract ends well, when there is one. -/
def BalanceAnswers (gate : ContractGate) : Prop :=
  (gate.fields.field "tick").truthy = true → W.progress "waiting_contract_balance" = .ok () ∧
    ∃ balance, waitForContractBalance gate (gate.index S.actionData) (S.gateTimeout gate)
      W.explorer = .ok balance

/-- What can fail inside the waits of a contract gate, timers apart. -/
inductive GateError (gate : ContractGate) : Js → Prop where
  | announced {e : Js} (hwait : waitsForState gate = true)
      (h : W.progress "waiting_contract_state" = .error e) : GateError gate e
  | arguments {e : Js} (hwait : waitsForState gate = true)
      (hannounced : W.progress "waiting_contract_state" = .ok ())
      (h : validateStateArgs gate = .error e) : GateError gate e
  | explorer {e : Js} (hwait : waitsForState gate = true)
      (hannounced : W.progress "waiting_contract_state" = .ok ())
      (harguments : validateStateArgs gate = .ok ()) (h : W.explorer = .error e) : GateError gate e
  | balanceAnnounced {e : Js} (hstate : StateAnswers S W gate)
      (hwait : (gate.fields.field "tick").truthy = true)
      (h : W.progress "waiting_contract_balance" = .error e) : GateError gate e
  | balanceExplorer {e : Js} (hstate : StateAnswers S W gate)
      (hwait : (gate.fields.field "tick").truthy = true)
      (hannounced : W.progress "waiting_contract_balance" = .ok ())
      (h : W.explorer = .error e) : GateError gate e

/-- What can fail after the broadcasts, timers apart. -/
inductive LateError (txid : String) : Js → Prop where
  | waiting {e : Js} (hwait : S.waitForIndexer = true) (h : W.progress "waiting" = .error e) :
      LateError txid e
  | explorer {e : Js} (hwait : S.waitForIndexer = true) (hannounced : W.progress "waiting" = .ok ())
      (h : W.explorer = .error e) : LateError txid (markConfirmationTimeout txid e)
  | confirmed {e indexed : Js} (hwait : S.waitForIndexer = true)
      (hannounced : W.progress "waiting" = .ok ()) (hexplorer : W.explorer = .ok ())
      (hindexed : waitForTxid txid (S.waitOptions H) W.polls none = .ok indexed)
      (h : W.progress "confirmed" = .error e) : LateError txid e
  | index {gate : ContractGate} (hindexer : IndexerAnswers H S W txid)
      (hgate : S.awaitContract = some gate)
      (h : isAbsentIndex (gate.index S.actionData) = true) : LateError txid missingContractIndex
  | gate {gate : ContractGate} {e : Js} (hindexer : IndexerAnswers H S W txid)
      (hgate : S.awaitContract = some gate)
      (hindex : isAbsentIndex (gate.index S.actionData) = false) (h : GateError S W gate e) :
      LateError txid (markContractTimeout txid e)
  | settled {gate : ContractGate} {e : Js} (hindexer : IndexerAnswers H S W txid)
      (hgate : S.awaitContract = some gate)
      (hindex : isAbsentIndex (gate.index S.actionData) = false) (hstate : StateAnswers S W gate)
      (hbalance : BalanceAnswers S W gate) (h : W.progress "contract_settled" = .error e) :
      LateError txid e

/-- An error names a transaction of a submission that is broadcast. -/
def CarriesSent (s : Staged) (e : Js) : Prop :=
  CarriesTxid e s.signed.txid ∨ ∃ r, s.revealSigned = some r ∧ CarriesTxid e r.txid

/-- An error names the first transaction and brings the reveal, when there is one. -/
def CarriesCommit (s : Staged) (e : Js) : Prop :=
  CarriesTxid e s.signed.txid ∧ ∀ r, s.revealSigned = some r →
    (e.field "details").field "revealTxHex" = str r.txHex

/-- What a submission needs from the outside to keep its rules. -/
structure AtomicWhen : Prop where
  /-- no chunked action gets to the request for its reveal -/
  reveal : ∀ s, (stage S W).outcome = .ok s → ¬AsksReveal S W s
  /-- the answer to the first broadcast is lost -/
  lost : ∀ s e, CommitSent S W s → W.broadcastTx .transaction = .error e →
    W.reached .transaction = true → CarriesCommit s e
  /-- the callback fails between the two broadcasts of an envelope -/
  between : ∀ s r e, CommitSent S W s → W.broadcastTx .transaction = .ok () →
    s.revealSigned = some r → W.progress "envelope_revealing" = .error e → CarriesCommit s e
  late : ∀ s e, AllSent S W s → LateError H S W (finalTx s none).txid e → CarriesSent s e

end Condition

/-- The signature of a transaction, by the caller's signer or by the wallet. -/
def SubmitWorld.signs (W : SubmitWorld) (tx : SubmissionTx) (signed : SignedTx) : Prop :=
  match tx, W.signer with
  | .transaction, some r => r = .ok signed
  | tx, _ => W.sign tx = .ok signed

/-! ### The first signatures -/

variable {H : Host} {C : TxCodec} {S : SubmitCall} {W : SubmitWorld} {s : Staged}

@[simp] theorem each_progress {P : SubmitEvent → Prop} {step : String}
    {data : List (String × Js)} :
    (progress W step data).Each P ↔ P (.progress step (.obj data)) := each_call _

@[simp] theorem outcome_progress {step : String} {data : List (String × Js)} :
    (progress W step data).outcome = W.progress step := rfl

/-- What a submission does before its first broadcast, in the order of signatures. -/
def Early (t : SubmitEvent) : Prop :=
  match t with
  | .progress _ _ | .createTx => True
  | .reconciled tx | .bound tx | .signed tx _ => tx ≠ .chunkReveal
  | _ => False

theorem Early.releases {t : SubmitEvent} (h : Early t) : t.releases = false := by
  cases t <;> first | rfl | cases h

theorem each_resolveAction : (resolveAction S W).Each Early := by
  refine (each_lift _).bind fun _ => ?_
  refine (each_lift _).bind fun _ => ?_
  refine (each_lift _).bind fun createResult => ?_
  refine Each.bind ?_ fun _ => each_pure
  exact each_progress.2 trivial

theorem each_reconcileTransaction {encoded : Js} : (reconcileTransaction W encoded).Each Early := by
  refine (each_onlyIf.2 fun _ => each_lift _).bind fun _ => ?_
  refine Each.bind ?_ fun _ => ?_
  · simp [Early]
  refine Each.bind ?_ fun _ => ?_
  · simp [each_onlyIf, Early]
  simp [Early]

theorem each_stage : (stage S W).Each Early := by
  refine (each_lift _).bind fun _ => ?_
  refine (each_lift _).bind fun _ => ?_
  refine (each_onlyIf.2 fun _ => each_lift _).bind fun _ => ?_
  refine Each.bind (each_progress.2 trivial) fun _ => ?_
  refine each_resolveAction.bind fun createResult => ?_
  refine Each.bind ((each_call _).2 trivial) fun encoded => ?_
  refine (each_lift _).bind fun carried => ?_
  refine each_reconcileTransaction.bind fun _ => ?_
  refine Each.bind (each_progress.2 trivial) fun _ => ?_
  refine Each.bind ?_ fun signed => Each.bind ?_ fun _ => each_pure
  · unfold signTransaction
    split
    · exact (each_lift _).bind fun _ => by simp [Early]
    · simp [Early]
  · unfold prepareEnvelope
    split
    · refine Each.bind (by simp [Early]) fun _ => ?_
      refine Each.bind (by simp [Early]) fun revealSigned => ?_
      exact Each.bind (each_progress.2 trivial) fun _ => each_pure
    · exact each_pure

theorem mem_reconcileTransaction {encoded : Js}
    (h : (reconcileTransaction W encoded).outcome = .ok ()) :
    .reconciled .transaction ∈ (reconcileTransaction W encoded).trace ∧
      .bound .transaction ∈ (reconcileTransaction W encoded).trace ∧
      ((encoded.field "revealPsbt").truthy = true →
        .reconciled .envelopeReveal ∈ (reconcileTransaction W encoded).trace) := by
  obtain ⟨⟨⟩, hfunding, h⟩ := bind_eq_ok.1 h
  obtain ⟨⟨⟩, hfirst, h⟩ := bind_eq_ok.1 h
  obtain ⟨⟨⟩, hreveal, hbind⟩ := bind_eq_ok.1 h
  refine ⟨?_, ?_, fun hc => ?_⟩
  · refine mem_trace_of_right hfunding (mem_trace_of_left ?_)
    exact mem_trace_passed.2 ⟨(), by simpa using hfirst, rfl⟩
  · refine mem_trace_of_right hfunding (mem_trace_of_right hfirst (mem_trace_of_right hreveal ?_))
    exact mem_trace_passed.2 ⟨(), by simpa using hbind, rfl⟩
  · refine mem_trace_of_right hfunding (mem_trace_of_right hfirst (mem_trace_of_left ?_))
    refine mem_trace_onlyIf.2 ⟨hc, mem_trace_passed.2 ⟨(), ?_, rfl⟩⟩
    simpa using outcome_onlyIf.1 hreveal hc

theorem mem_signTransaction {encoded : Js} {signed : SignedTx}
    (h : (signTransaction W encoded).outcome = .ok signed) :
    .signed .transaction signed ∈ (signTransaction W encoded).trace ∧
      W.signs .transaction signed := by
  unfold signTransaction at h ⊢
  split at h
  · next r hsigner =>
    obtain ⟨⟨⟩, hvalid, hsigned⟩ := bind_eq_ok.1 h
    rw [outcome_passed] at hsigned
    refine ⟨mem_trace_of_right hvalid (mem_trace_passed.2 ⟨signed, hsigned, rfl⟩), ?_⟩
    simpa [SubmitWorld.signs, hsigner] using hsigned
  · next hsigner =>
    rw [outcome_passed] at h
    refine ⟨mem_trace_passed.2 ⟨signed, h, rfl⟩, ?_⟩
    simpa [SubmitWorld.signs, hsigner] using h

/-- The reveal of an envelope, when there is one, is bound and signed. -/
theorem mem_prepareEnvelope {encoded : Js} {revealSigned : Option SignedTx}
    (h : (prepareEnvelope W encoded).outcome = .ok revealSigned) :
    ((encoded.field "revealPsbt").truthy = true ∧ ∃ r, revealSigned = some r ∧
        .bound .envelopeReveal ∈ (prepareEnvelope W encoded).trace ∧
        .signed .envelopeReveal r ∈ (prepareEnvelope W encoded).trace ∧
        W.signs .envelopeReveal r) ∨
      ((encoded.field "revealPsbt").truthy = false ∧ revealSigned = none) := by
  unfold prepareEnvelope at h ⊢
  split
  case isTrue hc =>
    rw [if_pos hc] at h
    obtain ⟨⟨⟩, hbound, h⟩ := bind_eq_ok.1 h
    obtain ⟨r, hsigned, h⟩ := bind_eq_ok.1 h
    obtain ⟨⟨⟩, -, h⟩ := bind_eq_ok.1 h
    rw [outcome_passed] at hsigned
    refine .inl ⟨hc, r, (Except.ok.inj h).symm, ?_, ?_, hsigned⟩
    · exact mem_trace_of_left (mem_trace_passed.2 ⟨(), by simpa using hbound, rfl⟩)
    · refine mem_trace_of_right hbound (mem_trace_of_left ?_)
      exact mem_trace_passed.2 ⟨r, hsigned, rfl⟩
  case isFalse hc =>
    rw [if_neg hc] at h
    exact .inr ⟨by simpa using hc, (Except.ok.inj h).symm⟩

/-- The reveal that is signed is the one that is kept. -/
def SignedAs (revealSigned : Option SignedTx) (t : SubmitEvent) : Prop :=
  ∀ tx signed, t = .signed tx signed →
    tx = .transaction ∨ (tx = .envelopeReveal ∧ revealSigned = some signed)

theorem each_signTransaction {encoded : Js} {reveal : Option SignedTx} :
    (signTransaction W encoded).Each (SignedAs reveal) := by
  have hsigned : ∀ signed, SignedAs reveal (.signed .transaction signed) := by
    rintro signed tx signed' ⟨⟩
    exact .inl rfl
  unfold signTransaction
  split
  · exact (each_lift _).bind fun _ => (each_passed _ _).2 fun signed _ => hsigned signed
  · exact (each_passed _ _).2 fun signed _ => hsigned signed

theorem each_prepareEnvelope {encoded : Js} {revealSigned : Option SignedTx}
    (h : (prepareEnvelope W encoded).outcome = .ok revealSigned) :
    (prepareEnvelope W encoded).Each (SignedAs revealSigned) := by
  unfold prepareEnvelope at h ⊢
  split
  case isTrue hc =>
    rw [if_pos hc] at h
    obtain ⟨⟨⟩, -, h⟩ := bind_eq_ok.1 h
    obtain ⟨r, hsigned, h⟩ := bind_eq_ok.1 h
    obtain ⟨⟨⟩, -, h⟩ := bind_eq_ok.1 h
    obtain rfl := Except.ok.inj h
    refine Each.bind (by simp [SignedAs]) fun _ => each_bind.2 ⟨?_, fun r' _ => ?_⟩
    · refine (each_passed _ _).2 fun r' hr' => ?_
      rw [outcome_passed, hr'] at hsigned
      obtain rfl := Except.ok.inj hsigned
      rintro tx signed ⟨⟩
      exact .inr ⟨rfl, rfl⟩
    · exact Each.bind (by simp [SignedAs]) fun _ => each_pure
  case isFalse hc => exact each_pure

/-- What is known of a submission when its first signatures are there. -/
structure Signatures (W : SubmitWorld) (t : List SubmitEvent) (s : Staged) : Prop where
  encoded : W.createTx = .ok s.encoded
  signs : W.signs .transaction s.signed
  signsReveal : ∀ r, s.revealSigned = some r → W.signs .envelopeReveal r
  first : TxPrepared t .transaction
  reveal : (s.encoded.field "revealPsbt").truthy = true → TxPrepared t .envelopeReveal
  revealSigned : s.revealSigned.isSome = (s.encoded.field "revealPsbt").truthy
  signed : ∀ e ∈ t, SignedAs s.revealSigned e

theorem each_resolveAction_signedAs {reveal : Option SignedTx} :
    (resolveAction S W).Each (SignedAs reveal) := by
  refine (each_lift _).bind fun _ => (each_lift _).bind fun _ => (each_lift _).bind fun _ => ?_
  exact Each.bind (by simp [SignedAs]) fun _ => each_pure

theorem each_reconcileTransaction_signedAs {encoded : Js} {reveal : Option SignedTx} :
    (reconcileTransaction W encoded).Each (SignedAs reveal) := by
  refine (each_onlyIf.2 fun _ => each_lift _).bind fun _ => ?_
  refine Each.bind (by simp [SignedAs]) fun _ => ?_
  exact Each.bind (by simp [each_onlyIf, SignedAs]) fun _ => by simp [SignedAs]

theorem signatures_stage (h : (stage S W).outcome = .ok s) :
    Signatures W (stage S W).trace s := by
  obtain ⟨⟨⟩, h₁, h⟩ := bind_eq_ok.1 h
  obtain ⟨⟨⟩, h₂, h⟩ := bind_eq_ok.1 h
  obtain ⟨⟨⟩, h₃, h⟩ := bind_eq_ok.1 h
  obtain ⟨⟨⟩, h₄, h⟩ := bind_eq_ok.1 h
  obtain ⟨createResult, h₅, h⟩ := bind_eq_ok.1 h
  obtain ⟨encoded, hencoded, h⟩ := bind_eq_ok.1 h
  obtain ⟨carried, h₆, h⟩ := bind_eq_ok.1 h
  obtain ⟨⟨⟩, hreconcile, h⟩ := bind_eq_ok.1 h
  obtain ⟨⟨⟩, h₇, h⟩ := bind_eq_ok.1 h
  obtain ⟨signed, hsign, h⟩ := bind_eq_ok.1 h
  obtain ⟨revealSigned, henvelope, h⟩ := bind_eq_ok.1 h
  obtain rfl := Except.ok.inj h
  -- the events of a part are events of the whole
  have hpart : ∀ t, t ∈ (reconcileTransaction W encoded).trace ∨
      t ∈ (signTransaction W encoded).trace ∨ t ∈ (prepareEnvelope W encoded).trace →
      t ∈ (stage S W).trace := by
    intro t ht
    refine mem_trace_of_right h₁ (mem_trace_of_right h₂ (mem_trace_of_right h₃ ?_))
    refine mem_trace_of_right h₄ (mem_trace_of_right h₅ (mem_trace_of_right hencoded ?_))
    refine mem_trace_of_right h₆ ?_
    rcases ht with ht | ht | ht
    · exact mem_trace_of_left ht
    · exact mem_trace_of_right hreconcile (mem_trace_of_right h₇ (mem_trace_of_left ht))
    · refine mem_trace_of_right hreconcile (mem_trace_of_right h₇ (mem_trace_of_right hsign ?_))
      exact mem_trace_of_left ht
  obtain ⟨hfirst, hbound, hreveal⟩ := mem_reconcileTransaction hreconcile
  refine ⟨by simpa using hencoded, (mem_signTransaction hsign).2, fun r hr => ?_, ?_, fun hc => ?_,
    ?_, ?_⟩
  · rcases mem_prepareEnvelope henvelope with ⟨-, r', hr', -, -, hsigns⟩ | ⟨-, hnone⟩
    · obtain rfl := Option.some.inj (hr.symm.trans hr')
      exact hsigns
    · rw [hnone] at hr
      cases hr
  · refine ⟨hpart _ (.inl hfirst), hpart _ (.inl hbound), signed, ?_⟩
    exact hpart _ (.inr (.inl (mem_signTransaction hsign).1))
  · rcases mem_prepareEnvelope henvelope with ⟨-, r, -, hb, hs, -⟩ | ⟨hc', -⟩
    · exact ⟨hpart _ (.inl (hreveal hc)), hpart _ (.inr (.inr hb)), r, hpart _ (.inr (.inr hs))⟩
    · rw [hc] at hc'
      cases hc'
  · rcases mem_prepareEnvelope henvelope with ⟨hc, r, rfl, -⟩ | ⟨hc, rfl⟩ <;> simp [hc]
  · change (stage S W).Each (SignedAs revealSigned)
    refine (each_lift _).bind fun _ => (each_lift _).bind fun _ => ?_
    refine (each_onlyIf.2 fun _ => each_lift _).bind fun _ => ?_
    refine Each.bind (by simp [SignedAs]) fun _ => each_resolveAction_signedAs.bind fun _ => ?_
    refine each_bind.2 ⟨by simp [SignedAs], fun encoded' hencoded' => ?_⟩
    rw [hencoded] at hencoded'
    obtain rfl := Except.ok.inj hencoded'
    refine (each_lift _).bind fun _ => each_reconcileTransaction_signedAs.bind fun _ => ?_
    refine Each.bind (by simp [SignedAs]) fun _ => each_signTransaction.bind fun _ => ?_
    exact (each_prepareEnvelope henvelope).bind fun _ => each_pure

/-! ### After the broadcasts -/

variable {txid : String} {result : SubmitResult} {gate : ContractGate} {e : Js}

/-- The waits add to a result and change nothing of its transactions. -/
structure SubmitResult.Adds (result r : SubmitResult) : Prop where
  txid : r.txid = result.txid
  spentInputs : r.spentInputs = result.spentInputs
  changeOutputs : r.changeOutputs = result.changeOutputs

theorem SubmitResult.Adds.trans {r r' : SubmitResult} (h : result.Adds r) (h' : r.Adds r') :
    result.Adds r' :=
  ⟨h'.txid.trans h.txid, h'.spentInputs.trans h.spentInputs,
    h'.changeOutputs.trans h.changeOutputs⟩

theorem waitIndexed_ok {r : SubmitResult} (h : (waitIndexed H S W result).outcome = .ok r) :
    IndexerAnswers H S W result.txid ∧ result.Adds r := by
  unfold waitIndexed at h
  split at h
  case isTrue hwait =>
    obtain ⟨⟨⟩, hwaiting, h⟩ := bind_eq_ok.1 h
    obtain ⟨indexed, hindexed, h⟩ := bind_eq_ok.1 h
    obtain ⟨⟨⟩, hconfirmed, h⟩ := bind_eq_ok.1 h
    obtain rfl := Except.ok.inj h
    refine ⟨fun _ => ⟨hwaiting, ?_, ?_, hconfirmed⟩, rfl, rfl, rfl⟩
    all_goals
      cases hexplorer : W.explorer with
      | error e => simp [hexplorer, Bind.bind, Except.bind, Except.mapError] at hindexed
      | ok u => ?_
    · rfl
    · cases hpolls : waitForTxid result.txid (S.waitOptions H) W.polls none with
      | error e => simp [hexplorer, hpolls, Bind.bind, Except.bind, Except.mapError] at hindexed
      | ok indexed => exact ⟨indexed, rfl⟩
  case isFalse hwait =>
    obtain rfl := Except.ok.inj h
    exact ⟨fun hc => absurd hc hwait, rfl, rfl, rfl⟩

theorem exists_waitIndexed (result : SubmitResult) (h : IndexerAnswers H S W result.txid) :
    ∃ r, (waitIndexed H S W result).outcome = .ok r ∧ r.txid = result.txid := by
  unfold waitIndexed
  split
  case isTrue hwait =>
    obtain ⟨hwaiting, hexplorer, ⟨indexed, hindexed⟩, hconfirmed⟩ := h hwait
    refine ⟨{ result with indexed }, bind_eq_ok.2 ⟨(), hwaiting, ?_⟩, rfl⟩
    refine bind_eq_ok.2 ⟨indexed, ?_, bind_eq_ok.2 ⟨(), hconfirmed, rfl⟩⟩
    rw [outcome_catching, outcome_lift, hexplorer]
    change (waitForTxid result.txid (S.waitOptions H) W.polls none).mapError _ = _
    rw [hindexed]
    rfl
  case isFalse => exact ⟨result, rfl, rfl⟩

theorem waitIndexed_error (h : (waitIndexed H S W result).outcome = .error e) :
    LateError H S W result.txid e ∨ CarriesTxid e result.txid := by
  unfold waitIndexed at h
  split at h
  case isTrue hwait =>
    rcases bind_eq_error.1 h with h | ⟨⟨⟩, hwaiting, h⟩
    · exact .inl (.waiting hwait h)
    rcases bind_eq_error.1 h with h | ⟨indexed, hindexed, h⟩
    · cases hexplorer : W.explorer with
      | error e' =>
        rw [outcome_catching, outcome_lift, hexplorer] at h
        obtain rfl := Except.error.inj h
        exact .inl (.explorer hwait hwaiting hexplorer)
      | ok u =>
        rw [outcome_catching, outcome_lift, hexplorer] at h
        change (waitForTxid result.txid (S.waitOptions H) W.polls none).mapError _ = _ at h
        cases hpolls : waitForTxid result.txid (S.waitOptions H) W.polls none with
        | error e' =>
          rw [hpolls] at h
          obtain rfl := Except.error.inj h
          exact .inr (markConfirmationTimeout_carries (waitForTxid_error hpolls))
        | ok indexed =>
          rw [hpolls] at h
          cases h
    · rcases bind_eq_error.1 h with h | ⟨⟨⟩, -, h⟩
      · rw [outcome_catching, outcome_lift] at hindexed
        cases hexplorer : W.explorer with
        | error e' => simp [hexplorer, Bind.bind, Except.bind, Except.mapError] at hindexed
        | ok u =>
          rw [hexplorer] at hindexed
          change (waitForTxid result.txid (S.waitOptions H) W.polls none).mapError _ = _ at hindexed
          cases hpolls : waitForTxid result.txid (S.waitOptions H) W.polls none with
          | error e' =>
            rw [hpolls] at hindexed
            cases hindexed
          | ok indexed' => exact .inl (.confirmed hwait hwaiting hexplorer hpolls h)
      · cases h
  case isFalse => cases h

theorem waitState_ok {r : SubmitResult}
    (h : (waitState S W gate (gate.index S.actionData) result).outcome = .ok r) :
    StateAnswers S W gate ∧ result.Adds r := by
  unfold waitState at h
  split at h
  case isTrue hwait =>
    obtain ⟨⟨⟩, hwaiting, h⟩ := bind_eq_ok.1 h
    obtain ⟨state, hstate, h⟩ := bind_eq_ok.1 h
    obtain rfl := Except.ok.inj h
    exact ⟨fun _ => ⟨hwaiting, state, hstate⟩, rfl, rfl, rfl⟩
  case isFalse hwait =>
    obtain rfl := Except.ok.inj h
    exact ⟨fun hc => absurd hc hwait, rfl, rfl, rfl⟩

theorem exists_waitState (result : SubmitResult) (h : StateAnswers S W gate) :
    ∃ r, (waitState S W gate (gate.index S.actionData) result).outcome = .ok r ∧
      r.txid = result.txid := by
  unfold waitState
  split
  case isTrue hwait =>
    obtain ⟨hwaiting, state, hstate⟩ := h hwait
    exact ⟨_, bind_eq_ok.2 ⟨(), hwaiting, bind_eq_ok.2 ⟨state, hstate, rfl⟩⟩, rfl⟩
  case isFalse => exact ⟨result, rfl, rfl⟩

theorem waitBalance_ok {r : SubmitResult}
    (h : (waitBalance S W gate (gate.index S.actionData) result).outcome = .ok r) :
    BalanceAnswers S W gate ∧ result.Adds r := by
  unfold waitBalance at h
  split at h
  case isTrue hwait =>
    obtain ⟨⟨⟩, hwaiting, h⟩ := bind_eq_ok.1 h
    obtain ⟨balance, hbalance, h⟩ := bind_eq_ok.1 h
    obtain rfl := Except.ok.inj h
    exact ⟨fun _ => ⟨hwaiting, balance, hbalance⟩, rfl, rfl, rfl⟩
  case isFalse hwait =>
    obtain rfl := Except.ok.inj h
    exact ⟨fun hc => absurd hc hwait, rfl, rfl, rfl⟩

theorem exists_waitBalance (result : SubmitResult) (h : BalanceAnswers S W gate) :
    ∃ r, (waitBalance S W gate (gate.index S.actionData) result).outcome = .ok r ∧
      r.txid = result.txid := by
  unfold waitBalance
  split
  case isTrue hwait =>
    obtain ⟨hwaiting, balance, hbalance⟩ := h hwait
    exact ⟨_, bind_eq_ok.2 ⟨(), hwaiting, bind_eq_ok.2 ⟨balance, hbalance, rfl⟩⟩, rfl⟩
  case isFalse => exact ⟨result, rfl, rfl⟩

/-- The two waits of a contract gate. -/
def gateWaits (S : SubmitCall) (W : SubmitWorld) (gate : ContractGate) (result : SubmitResult) :
    Submit SubmitResult :=
  waitState S W gate (gate.index S.actionData) result >>=
    waitBalance S W gate (gate.index S.actionData)

theorem gateWaits_ok {r : SubmitResult} (h : (gateWaits S W gate result).outcome = .ok r) :
    StateAnswers S W gate ∧ BalanceAnswers S W gate ∧ result.Adds r := by
  obtain ⟨r', hstate, hbalance⟩ := bind_eq_ok.1 h
  obtain ⟨hs, hadds⟩ := waitState_ok hstate
  obtain ⟨hb, hadds'⟩ := waitBalance_ok hbalance
  exact ⟨hs, hb, hadds.trans hadds'⟩

theorem exists_gateWaits (result : SubmitResult) (hstate : StateAnswers S W gate)
    (hbalance : BalanceAnswers S W gate) :
    ∃ r, (gateWaits S W gate result).outcome = .ok r ∧ r.txid = result.txid := by
  obtain ⟨r, hr, htxid⟩ := exists_waitState result hstate
  obtain ⟨r', hr', htxid'⟩ := exists_waitBalance r hbalance
  exact ⟨r', bind_eq_ok.2 ⟨r, hr, hr'⟩, htxid'.trans htxid⟩

theorem gateWaits_error (h : (gateWaits S W gate result).outcome = .error e) :
    GateError S W gate e ∨ IsContractTimeout e := by
  rcases bind_eq_error.1 h with h | ⟨r, hstate, h⟩
  · unfold waitState at h
    split at h
    case isTrue hwait =>
      rcases bind_eq_error.1 h with h | ⟨⟨⟩, hwaiting, h⟩
      · exact .inl (.announced hwait h)
      rcases bind_eq_error.1 h with h | ⟨_, -, h⟩
      · rcases waitForContractState_error h with h | ⟨hargs, h⟩ | h
        · exact .inl (.arguments hwait hwaiting h)
        · exact .inl (.explorer hwait hwaiting hargs h)
        · exact .inr h
      · cases h
    case isFalse => cases h
  · obtain ⟨hs, -⟩ := waitState_ok hstate
    unfold waitBalance at h
    split at h
    case isTrue hwait =>
      rcases bind_eq_error.1 h with h | ⟨⟨⟩, hwaiting, h⟩
      · exact .inl (.balanceAnnounced hs hwait h)
      rcases bind_eq_error.1 h with h | ⟨_, -, h⟩
      · rcases waitForContractBalance_error h with h | h
        · exact .inl (.balanceExplorer hs hwait hwaiting h)
        · exact .inr h
      · cases h
    case isFalse => cases h

theorem gateWaits_of_gateError (h : GateError S W gate e) :
    (gateWaits S W gate result).outcome = .error e := by
  cases h with
  | announced hwait h =>
    refine bind_eq_error.2 (.inl ?_)
    rw [waitState, if_pos hwait]
    exact bind_eq_error.2 (.inl h)
  | arguments hwait hannounced h =>
    refine bind_eq_error.2 (.inl ?_)
    rw [waitState, if_pos hwait]
    refine bind_eq_error.2 (.inr ⟨(), hannounced, bind_eq_error.2 (.inl ?_)⟩)
    rw [outcome_lift, waitForContractState, h]
    rfl
  | explorer hwait hannounced harguments h =>
    refine bind_eq_error.2 (.inl ?_)
    rw [waitState, if_pos hwait]
    refine bind_eq_error.2 (.inr ⟨(), hannounced, bind_eq_error.2 (.inl ?_)⟩)
    rw [outcome_lift, waitForContractState, harguments, h]
    rfl
  | balanceAnnounced hstate hwait h =>
    obtain ⟨r, hr, -⟩ := exists_waitState result hstate
    refine bind_eq_error.2 (.inr ⟨r, hr, ?_⟩)
    rw [waitBalance, if_pos hwait]
    exact bind_eq_error.2 (.inl h)
  | balanceExplorer hstate hwait hannounced h =>
    obtain ⟨r, hr, -⟩ := exists_waitState result hstate
    refine bind_eq_error.2 (.inr ⟨r, hr, ?_⟩)
    rw [waitBalance, if_pos hwait]
    refine bind_eq_error.2 (.inr ⟨(), hannounced, bind_eq_error.2 (.inl ?_)⟩)
    rw [outcome_lift, waitForContractBalance, h]
    rfl

theorem outcome_waitForContract_of_index (h : isAbsentIndex (gate.index S.actionData) = true) :
    (waitForContract S W gate result).outcome = .error missingContractIndex := by
  refine bind_eq_error.2 (.inl ?_)
  rw [h]
  rfl

theorem waitForContract_error (hindexer : IndexerAnswers H S W txid)
    (hgate : S.awaitContract = some gate) (htxid : result.txid = txid)
    (h : (waitForContract S W gate result).outcome = .error e) :
    LateError H S W txid e ∨ CarriesTxid e txid := by
  cases hindex : isAbsentIndex (gate.index S.actionData) with
  | true =>
    rw [outcome_waitForContract_of_index hindex] at h
    obtain rfl := Except.error.inj h
    exact .inl (.index hindexer hgate hindex)
  | false =>
    rcases bind_eq_error.1 h with h | ⟨⟨⟩, -, h⟩
    · rw [hindex] at h
      cases h
    rcases bind_eq_error.1 h with h | ⟨r, hr, h⟩
    · change (gateWaits S W gate result).outcome.mapError _ = _ at h
      cases hwaits : (gateWaits S W gate result).outcome with
      | error e' =>
        rw [hwaits] at h
        obtain rfl := Except.error.inj h
        rw [htxid]
        rcases gateWaits_error hwaits with hgate' | htimeout
        · exact .inl (.gate hindexer hgate hindex hgate')
        · exact .inr (markContractTimeout_carries htimeout)
      | ok r =>
        rw [hwaits] at h
        cases h
    · change (gateWaits S W gate result).outcome.mapError _ = _ at hr
      cases hwaits : (gateWaits S W gate result).outcome with
      | error e' =>
        rw [hwaits] at hr
        cases hr
      | ok r' =>
        obtain ⟨hstate, hbalance, -⟩ := gateWaits_ok hwaits
        rcases bind_eq_error.1 h with h | ⟨⟨⟩, -, h⟩
        · exact .inl (.settled hindexer hgate hindex hstate hbalance h)
        · cases h

theorem settle_error {phase2 : Option Phase2}
    (h : (settle H C S W s phase2).outcome = .error e) :
    LateError H S W (finalTx s phase2).txid e ∨ CarriesTxid e (finalTx s phase2).txid := by
  rcases bind_eq_error.1 h with h | ⟨r, hr, h⟩
  · exact waitIndexed_error h
  · obtain ⟨hindexer, hadds⟩ := waitIndexed_ok hr
    unfold settleContract at h
    split at h
    · next gate hgate => exact waitForContract_error hindexer hgate hadds.txid h
    · cases h

theorem settle_of_lateError {phase2 : Option Phase2}
    (h : LateError H S W (finalTx s phase2).txid e) :
    (settle H C S W s phase2).outcome = .error e := by
  cases h with
  | waiting hwait h =>
    refine bind_eq_error.2 (.inl ?_)
    rw [waitIndexed, if_pos hwait]
    exact bind_eq_error.2 (.inl h)
  | explorer hwait hannounced h =>
    refine bind_eq_error.2 (.inl ?_)
    rw [waitIndexed, if_pos hwait]
    refine bind_eq_error.2 (.inr ⟨(), hannounced, bind_eq_error.2 (.inl ?_)⟩)
    rw [outcome_catching, outcome_lift, h]
    rfl
  | @confirmed _ indexed hwait hannounced hexplorer hindexed h =>
    refine bind_eq_error.2 (.inl ?_)
    rw [waitIndexed, if_pos hwait]
    refine bind_eq_error.2 (.inr ⟨(), hannounced, bind_eq_error.2 (.inr ⟨indexed, ?_, ?_⟩)⟩)
    · rw [outcome_catching, outcome_lift, hexplorer]
      change (waitForTxid _ (S.waitOptions H) W.polls none).mapError _ = _
      rw [shapeResult, hindexed]
      rfl
    · exact bind_eq_error.2 (.inl h)
  | @index gate hindexer hgate h =>
    obtain ⟨r, hr, -⟩ := exists_waitIndexed (shapeResult C S s phase2) hindexer
    refine bind_eq_error.2 (.inr ⟨r, hr, ?_⟩)
    rw [settleContract, hgate]
    exact outcome_waitForContract_of_index h
  | @gate gate _ hindexer hgate hindex h =>
    obtain ⟨r, hr, htxid⟩ := exists_waitIndexed (shapeResult C S s phase2) hindexer
    refine bind_eq_error.2 (.inr ⟨r, hr, ?_⟩)
    rw [settleContract, hgate]
    refine bind_eq_error.2 (.inr ⟨(), by rw [hindex]; rfl, bind_eq_error.2 (.inl ?_)⟩)
    change (gateWaits S W gate r).outcome.mapError _ = _
    rw [gateWaits_of_gateError h, htxid]
    rfl
  | @settled gate _ hindexer hgate hindex hstate hbalance h =>
    obtain ⟨r, hr, -⟩ := exists_waitIndexed (shapeResult C S s phase2) hindexer
    obtain ⟨r', hr', -⟩ := exists_gateWaits r hstate hbalance
    refine bind_eq_error.2 (.inr ⟨r, hr, ?_⟩)
    rw [settleContract, hgate]
    refine bind_eq_error.2 (.inr ⟨(), by rw [hindex]; rfl, bind_eq_error.2 (.inr ⟨r', ?_, ?_⟩)⟩)
    · change (gateWaits S W gate r).outcome.mapError _ = _
      rw [hr']
      rfl
    · exact bind_eq_error.2 (.inl h)

/-- What follows the broadcasts only tells the caller. -/
def Told (t : SubmitEvent) : Prop := ∃ step data, t = .progress step data

theorem each_settle {phase2 : Option Phase2} : (settle H C S W s phase2).Each Told := by
  have htold : ∀ step data, (progress W step data).Each Told := fun step data =>
    each_progress.2 ⟨step, _, rfl⟩
  refine Each.bind ?_ fun r => ?_
  · unfold waitIndexed
    split
    · refine (htold _ _).bind fun _ => Each.bind ?_ fun _ => (htold _ _).bind fun _ => each_pure
      exact (each_catching _).2 (each_lift _)
    · exact each_pure
  · unfold settleContract
    split
    · refine (each_onlyIf.2 fun _ => each_lift _).bind fun _ => Each.bind ?_ fun _ =>
        (htold _ _).bind fun _ => each_pure
      refine (each_catching _).2 (Each.bind ?_ fun _ => ?_)
      · unfold waitState
        split
        · exact (htold _ _).bind fun _ => (each_lift _).bind fun _ => each_pure
        · exact each_pure
      · unfold waitBalance
        split
        · exact (htold _ _).bind fun _ => (each_lift _).bind fun _ => each_pure
        · exact each_pure
    · exact each_pure

/-! ### The broadcasts -/

theorem broadcastTx_ok {tx : SubmissionTx} {signed : SignedTx}
    (h : (broadcastTx W tx signed).outcome = .ok ()) :
    signed.txHex ≠ "" ∧ W.broadcastTx tx = .ok () ∧
      .accepted tx signed ∈ (broadcastTx W tx signed).trace := by
  unfold broadcastTx at h ⊢
  split
  case isTrue hc =>
    rw [if_pos hc] at h
    cases h
  case isFalse hc =>
    rw [if_neg hc] at h
    obtain ⟨⟨⟩, -, h⟩ := bind_eq_ok.1 h
    cases hb : W.broadcastTx tx with
    | error e =>
      rw [hb] at h
      cases hr : W.reached tx <;> simp [hr] at h
    | ok u => exact ⟨hc, rfl, mem_trace_of_right rfl (List.mem_cons_self ..)⟩

theorem broadcastTx_of_ok {tx : SubmissionTx} {signed : SignedTx} (hbytes : signed.txHex ≠ "")
    (h : W.broadcastTx tx = .ok ()) : broadcastTx W tx signed =
      ⟨.ok (), [.broadcast tx signed.txHex, .accepted tx signed]⟩ := by
  rw [broadcastTx, if_neg hbytes, bind_of_ok rfl, h]
  rfl

theorem broadcastTx_of_lost {tx : SubmissionTx} {signed : SignedTx} (hbytes : signed.txHex ≠ "")
    (h : W.broadcastTx tx = .error e) (hreached : W.reached tx = true) : broadcastTx W tx signed =
      ⟨.error e, [.broadcast tx signed.txHex, .accepted tx signed]⟩ := by
  rw [broadcastTx, if_neg hbytes, bind_of_ok rfl, h]
  simp [hreached, call]

/-- A broadcast that fails is not taken, or its answer is lost. -/
theorem broadcastTx_error {tx : SubmissionTx} {signed : SignedTx}
    (h : (broadcastTx W tx signed).outcome = .error e) :
    (∀ tx' signed', .accepted tx' signed' ∉ (broadcastTx W tx signed).trace) ∨
      (signed.txHex ≠ "" ∧ W.broadcastTx tx = .error e ∧ W.reached tx = true) := by
  unfold broadcastTx at h ⊢
  split
  case isTrue hc => exact .inl fun tx' signed' hmem => by simp at hmem
  case isFalse hc =>
    rw [if_neg hc] at h
    rcases bind_eq_error.1 h with h | ⟨⟨⟩, -, h⟩
    · cases h
    cases hb : W.broadcastTx tx with
    | error e' =>
      rw [hb] at h
      cases hr : W.reached tx with
      | true =>
        simp only [hr, if_true, outcome_call] at h
        exact .inr ⟨hc, by rw [Except.error.inj h], rfl⟩
      | false =>
        refine .inl fun tx' signed' hmem => ?_
        rcases mem_trace_bind.1 hmem with hmem | ⟨⟨⟩, -, hmem⟩ <;> simp at hmem
    | ok u =>
      rw [hb] at h
      cases h

/-- What a broadcast does. -/
def BroadcastOf (tx : SubmissionTx) (signed : SignedTx) (t : SubmitEvent) : Prop :=
  t = .broadcast tx signed.txHex ∨ t = .accepted tx signed

theorem each_broadcastTx {tx : SubmissionTx} {signed : SignedTx} :
    (broadcastTx W tx signed).Each (BroadcastOf tx signed) := by
  unfold broadcastTx
  split
  · exact each_lift _
  · refine Each.bind ((each_call _).2 (.inl rfl)) fun _ => ?_
    split
    · exact (each_call _).2 (.inr rfl)
    · split
      · exact (each_call _).2 (.inr rfl)
      · exact each_lift _

/-- What the broadcasts of a submission do that is not chunked. -/
def Released (s : Staged) (t : SubmitEvent) : Prop :=
  Told t ∨ BroadcastOf .transaction s.signed t ∨
    ∃ r, s.revealSigned = some r ∧ BroadcastOf .envelopeReveal r t

theorem each_release : (release W s none).Each (Released s) := by
  refine Each.bind (each_progress.2 (.inl ⟨_, _, rfl⟩)) fun _ => ?_
  refine Each.bind (each_broadcastTx.mono fun t ht => .inr (.inl ht)) fun _ => ?_
  refine Each.bind ?_ fun _ => each_pure
  unfold releaseEnvelope
  split
  · next r hr =>
    refine Each.bind (each_progress.2 (.inl ⟨_, _, rfl⟩)) fun _ => (each_catching _).2 ?_
    exact each_broadcastTx.mono fun t ht => .inr (.inr ⟨r, hr, ht⟩)
  · exact each_pure

theorem release_ok (h : (release W s none).outcome = .ok ()) :
    (W.progress "broadcasting" = .ok () ∧ s.signed.txHex ≠ "" ∧
      W.broadcastTx .transaction = .ok () ∧
      ∀ r, s.revealSigned = some r → W.progress "envelope_revealing" = .ok () ∧ r.txHex ≠ "" ∧
        W.broadcastTx .envelopeReveal = .ok ()) ∧
    .accepted .transaction s.signed ∈ (release W s none).trace ∧
    ∀ r, s.revealSigned = some r → .accepted .envelopeReveal r ∈ (release W s none).trace := by
  obtain ⟨⟨⟩, hprogress, h⟩ := bind_eq_ok.1 h
  obtain ⟨⟨⟩, hcommit, h⟩ := bind_eq_ok.1 h
  obtain ⟨⟨⟩, hreveal, -⟩ := bind_eq_ok.1 h
  obtain ⟨hbytes, hb, haccepted⟩ := broadcastTx_ok hcommit
  have hboth : ∀ r, s.revealSigned = some r → (W.progress "envelope_revealing" = .ok () ∧
      r.txHex ≠ "" ∧ W.broadcastTx .envelopeReveal = .ok ()) ∧
      .accepted .envelopeReveal r ∈ (releaseEnvelope W s).trace := by
    intro r hr
    unfold releaseEnvelope at hreveal ⊢
    simp only [hr] at hreveal ⊢
    obtain ⟨⟨⟩, hp, hreveal⟩ := bind_eq_ok.1 hreveal
    rw [outcome_catching] at hreveal
    cases hout : (broadcastTx W .envelopeReveal r).outcome with
    | error e =>
      rw [hout] at hreveal
      cases hreveal
    | ok u =>
      obtain ⟨hbytes', hb', haccepted'⟩ := broadcastTx_ok hout
      exact ⟨⟨hp, hbytes', hb'⟩, mem_trace_of_right hp haccepted'⟩
  refine ⟨⟨hprogress, hbytes, hb, fun r hr => (hboth r hr).1⟩, ?_, fun r hr => ?_⟩
  · exact mem_trace_of_right hprogress (mem_trace_of_left haccepted)
  · refine mem_trace_of_right hprogress (mem_trace_of_right hcommit ?_)
    exact mem_trace_of_left (hboth r hr).2

/-- How the broadcasts fail: nothing is taken, the first answer is lost, or the second broadcast is
not made or not taken. -/
theorem release_error (h : (release W s none).outcome = .error e) :
    (∀ tx signed, .accepted tx signed ∉ (release W s none).trace) ∨
      (.accepted .transaction s.signed ∈ (release W s none).trace ∧
        W.progress "broadcasting" = .ok () ∧ s.signed.txHex ≠ "" ∧
        ((W.broadcastTx .transaction = .error e ∧ W.reached .transaction = true) ∨
          (W.broadcastTx .transaction = .ok () ∧ ∃ r, s.revealSigned = some r ∧
            (W.progress "envelope_revealing" = .error e ∨
              ∃ cause, e = buildEnvelopeBroadcastError s r cause)))) := by
  have hquiet : ∀ step data tx signed,
      .accepted tx signed ∉ (progress W step data).trace := by
    intro step data tx signed hmem
    simp [progress] at hmem
  rcases bind_eq_error.1 h with hp | ⟨⟨⟩, hprogress, h⟩
  · refine .inl fun tx signed hmem => ?_
    rw [release, bind_of_error hp] at hmem
    exact hquiet _ _ tx signed hmem
  rcases bind_eq_error.1 h with hb | ⟨⟨⟩, hcommit, h⟩
  · rcases broadcastTx_error hb with hnone | ⟨hbytes, hlost, hreached⟩
    · refine .inl fun tx signed hmem => ?_
      rw [release, bind_of_ok hprogress, bind_of_error hb] at hmem
      rcases List.mem_append.1 hmem with hmem | hmem
      · exact hquiet _ _ tx signed hmem
      · exact hnone tx signed hmem
    · refine .inr ⟨mem_trace_of_right hprogress (mem_trace_of_left ?_), hprogress, hbytes,
        .inl ⟨hlost, hreached⟩⟩
      rw [broadcastTx_of_lost hbytes hlost hreached]
      simp
  · obtain ⟨hbytes, hb, haccepted⟩ := broadcastTx_ok hcommit
    refine .inr ⟨mem_trace_of_right hprogress (mem_trace_of_left haccepted), hprogress, hbytes,
      .inr ⟨hb, ?_⟩⟩
    rcases bind_eq_error.1 h with h | ⟨⟨⟩, -, h⟩
    · unfold releaseEnvelope at h
      split at h
      · next r hr =>
        refine ⟨r, hr, ?_⟩
        rcases bind_eq_error.1 h with h | ⟨⟨⟩, -, h⟩
        · exact .inl h
        · rw [outcome_catching] at h
          cases hout : (broadcastTx W .envelopeReveal r).outcome with
          | error cause =>
            rw [hout] at h
            exact .inr ⟨cause, (Except.error.inj h).symm⟩
          | ok u =>
            rw [hout] at h
            cases h
      · cases h
    · cases h

/-! ### A chunked action -/

theorem spendP2sh_of_asks (h : AsksReveal S W s) :
    spendP2sh S W s.signed = .call (.spendP2sh s.signed.txid s.signed.txHex) W.spendP2sh := by
  rw [spendP2sh, if_neg (by simp [h.pubkey]), if_neg h.txid, if_neg h.bytes]

/-- Without the request, a chunked action ends before anything leaves. -/
theorem prepareChunkReveal_of_not_asks (hc : isChunked s.encoded = true)
    (h : ¬AsksReveal S W s) : ∃ e, (prepareChunkReveal S W s).outcome = .error e ∧
      (prepareChunkReveal S W s).Each Told := by
  rw [prepareChunkReveal, if_pos hc]
  cases hp : W.progress "p2sh_spending" with
  | error e =>
    refine ⟨e, bind_eq_error.2 (.inl hp), ?_⟩
    refine each_bind.2 ⟨each_progress.2 ⟨_, _, rfl⟩, fun u hu => ?_⟩
    rw [outcome_progress, hp] at hu
    cases hu
  | ok u =>
    obtain ⟨e, he⟩ : ∃ e, spendP2sh S W s.signed = .lift (.error e) := by
      unfold spendP2sh
      split_ifs with h₁ h₂ h₃
      · exact ⟨_, rfl⟩
      · exact ⟨_, rfl⟩
      · exact ⟨_, rfl⟩
      · exact absurd ⟨hc, hp, by simpa using h₁, h₂, h₃⟩ h
    refine ⟨e, bind_eq_error.2 (.inr ⟨u, hp, bind_eq_error.2 (.inl ?_)⟩), ?_⟩
    · rw [he]
      rfl
    · refine Each.bind (each_progress.2 ⟨_, _, rfl⟩) fun _ => ?_
      rw [he, bind_of_error (outcome_lift _)]
      exact each_lift (.error e)

theorem prepareChunkReveal_of_single (hc : isChunked s.encoded = false) :
    prepareChunkReveal S W s = pure none := by
  rw [prepareChunkReveal, hc]
  rfl

/-! ### The rules -/

theorem TxPrepared.mono {t t' : List SubmitEvent} {tx : SubmissionTx} (h : TxPrepared t tx)
    (hsub : t ⊆ t') : TxPrepared t' tx := by
  obtain ⟨signed, hsigned⟩ := h.signed
  exact ⟨hsub h.reconciled, hsub h.bound, signed, hsub hsigned⟩

/-- Every transaction of an action that is not chunked is prepared by the first signatures. -/
theorem Signatures.prepared {t : List SubmitEvent} (h : Signatures W t s)
    (hc : isChunked s.encoded = false) {encoded : Js} (hencoded : W.createTx = .ok encoded) :
    ∀ tx ∈ requiredTxs encoded, TxPrepared t tx := by
  rw [h.encoded] at hencoded
  obtain rfl := Except.ok.inj hencoded
  intro tx htx
  rw [requiredTxs, hc] at htx
  rcases List.mem_append.1 htx with htx | htx
  · rcases List.mem_append.1 htx with htx | htx
    · obtain rfl := List.mem_singleton.1 htx
      exact h.first
    · split at htx
      · next hreveal =>
        obtain rfl := List.mem_singleton.1 htx
        exact h.reveal hreveal
      · cases htx
  · cases htx

theorem Told.releases {t : SubmitEvent} (h : Told t) : t.releases = false := by
  obtain ⟨step, data, rfl⟩ := h
  rfl

/-- An error after the first signatures. -/
theorem Signatures.carries_commit {t t' : List SubmitEvent} (h : Signatures W t s)
    (hrest : ∀ u ∈ t', ∀ tx signed, u ≠ .signed tx signed)
    (haccepted : .accepted .transaction s.signed ∈ t') (he : CarriesCommit s e) :
    ErrorCarries (t ++ t') e := by
  refine ⟨⟨.transaction, s.signed, List.mem_append.2 (.inr haccepted), he.1⟩, ?_⟩
  intro tx signed htx hsigned _
  rcases List.mem_append.1 hsigned with hsigned | hsigned
  · rcases h.signed _ hsigned tx signed rfl with rfl | ⟨rfl, hreveal⟩
    · exact absurd rfl htx
    · exact he.2 signed hreveal
  · exact absurd rfl (hrest _ hsigned tx signed)

theorem Signatures.carries_sent {t t' : List SubmitEvent} (h : Signatures W t s)
    (hrest : ∀ u ∈ t', ∀ tx signed, u ≠ .signed tx signed)
    (haccepted : .accepted .transaction s.signed ∈ t')
    (hreveal : ∀ r, s.revealSigned = some r → .accepted .envelopeReveal r ∈ t')
    (he : CarriesSent s e) : ErrorCarries (t ++ t') e := by
  refine ⟨?_, ?_⟩
  · rcases he with he | ⟨r, hr, he⟩
    · exact ⟨.transaction, s.signed, List.mem_append.2 (.inr haccepted), he⟩
    · exact ⟨.envelopeReveal, r, List.mem_append.2 (.inr (hreveal r hr)), he⟩
  · intro tx signed htx hsigned hnone
    rcases List.mem_append.1 hsigned with hsigned | hsigned
    · rcases h.signed _ hsigned tx signed rfl with rfl | ⟨rfl, hr⟩
      · exact absurd rfl htx
      · exact absurd (List.mem_append.2 (.inr (hreveal signed hr))) hnone
    · exact absurd rfl (hrest _ hsigned tx signed)

theorem Released.ne_signed {t : SubmitEvent} (h : Released s t) (tx : SubmissionTx)
    (signed : SignedTx) : t ≠ .signed tx signed := by
  rintro rfl
  rcases h with ⟨_, _, h⟩ | h | ⟨_, -, h⟩
  · cases h
  all_goals rcases h with h | h <;> cases h

theorem Told.ne_signed {t : SubmitEvent} (h : Told t) (tx : SubmissionTx) (signed : SignedTx) :
    t ≠ .signed tx signed := by
  rintro rfl
  obtain ⟨_, _, h⟩ := h
  cases h

/-- The broadcasts and what follows them. -/
def deliver (H : Host) (C : TxCodec) (S : SubmitCall) (W : SubmitWorld) (s : Staged) :
    Submit SubmitResult :=
  release W s none >>= fun _ => settle H C S W s none

theorem each_deliver : (deliver H C S W s).Each (Released s) :=
  each_release.bind fun _ => each_settle.mono fun _ ht => .inl ht

theorem submitAction_of_single (h : (stage S W).outcome = .ok s)
    (hc : isChunked s.encoded = false) : submitAction H C S W =
      ⟨(deliver H C S W s).outcome, (stage S W).trace ++ (deliver H C S W s).trace⟩ := by
  unfold submitAction
  rw [bind_of_ok h, prepareChunkReveal_of_single hc]
  rfl

/-- Nothing leaves. -/
def StaysInside (t : SubmitEvent) : Prop := Early t ∨ Told t

theorem StaysInside.releases {t : SubmitEvent} (h : StaysInside t) : t.releases = false := by
  rcases h with h | h
  · exact h.releases
  · exact h.releases

theorem StaysInside.ne_accepted {t : SubmitEvent} (h : StaysInside t) (tx : SubmissionTx)
    (signed : SignedTx) : t ≠ .accepted tx signed := by
  rintro rfl
  rcases h with h | ⟨_, _, h⟩
  · exact h
  · cases h

/-- Without a request for a reveal, a submission ends before anything leaves, or delivers. -/
theorem submitAction_cases (h : ∀ s, (stage S W).outcome = .ok s → ¬AsksReveal S W s) :
    (∃ e, (submitAction H C S W).outcome = .error e ∧ (submitAction H C S W).Each StaysInside) ∨
      ∃ s, (stage S W).outcome = .ok s ∧ isChunked s.encoded = false := by
  cases hs : (stage S W).outcome with
  | error e =>
    refine .inl ⟨e, bind_eq_error.2 (.inl hs), ?_⟩
    refine each_bind.2 ⟨each_stage.mono fun _ => .inl, fun s' hs' => ?_⟩
    rw [hs] at hs'
    cases hs'
  | ok s =>
    cases hc : isChunked s.encoded with
    | false => exact .inr ⟨s, rfl, hc⟩
    | true =>
      obtain ⟨e, he, heach⟩ := prepareChunkReveal_of_not_asks hc (h s hs)
      refine .inl ⟨e, bind_eq_error.2 (.inr ⟨s, hs, bind_eq_error.2 (.inl he)⟩), ?_⟩
      refine each_bind.2 ⟨each_stage.mono fun _ => .inl, fun s' hs' => ?_⟩
      rw [hs] at hs'
      obtain rfl := Except.ok.inj hs'
      refine each_bind.2 ⟨heach.mono fun _ => .inr, fun p hp => ?_⟩
      rw [he] at hp
      cases hp

theorem atomic_of_staysInside {α : Type} {x : Submit α} (h : x.Each StaysInside) : Atomic W x where
  ordered := by
    refine always_of_forall fun t ht pre hrel => ?_
    rw [(h t ht).releases] at hrel
    cases hrel
  unreleased := fun e _ _ t ht => (h t ht).releases
  carried := by
    rintro e - ⟨tx, signed, hmem⟩
    exact absurd rfl ((h _ hmem).ne_accepted tx signed)

theorem finalTx_none : finalTx s none = s.revealSigned.getD s.signed := by
  unfold finalTx
  cases s.revealSigned <;> rfl

/-- Every error of a delivery that the network has seen something of. -/
theorem deliver_carries (hwhen : AtomicWhen H S W) (hs : (stage S W).outcome = .ok s)
    (hc : isChunked s.encoded = false) (h : (deliver H C S W s).outcome = .error e)
    (haccepted : ∃ tx signed, .accepted tx signed ∈ (deliver H C S W s).trace) :
    ErrorCarries ((stage S W).trace ++ (deliver H C S W s).trace) e := by
  have hsig := signatures_stage hs
  have hrest : ∀ u ∈ (deliver H C S W s).trace, ∀ tx signed, u ≠ .signed tx signed :=
    fun u hu => (each_deliver u hu).ne_signed
  rcases bind_eq_error.1 h with hrelease | ⟨⟨⟩, hrelease, hsettle⟩
  · rcases release_error hrelease with hnone | ⟨haccepted, hp, hbytes, hcases⟩
    · obtain ⟨tx, signed, hmem⟩ := haccepted
      rw [deliver, bind_of_error hrelease] at hmem
      exact absurd hmem (hnone tx signed)
    · have hsent : CommitSent S W s := ⟨hs, hc, hp, hbytes⟩
      refine hsig.carries_commit hrest (mem_trace_of_left haccepted) ?_
      rcases hcases with ⟨hlost, hreached⟩ | ⟨hcommit, r, hr, hbetween | ⟨cause, rfl⟩⟩
      · exact hwhen.lost s e hsent hlost hreached
      · exact hwhen.between s r e hsent hcommit hr hbetween
      · refine ⟨.inr (.inr rfl), fun r' hr' => ?_⟩
        rw [hr] at hr'
        obtain rfl := Option.some.inj hr'
        rfl
  · obtain ⟨⟨hp, hbytes, hcommit, hreveal⟩, haccepted, hrevealed⟩ := release_ok hrelease
    have hsent : AllSent S W s := ⟨⟨hs, hc, hp, hbytes⟩, hcommit, hreveal⟩
    refine hsig.carries_sent hrest (mem_trace_of_left haccepted)
      (fun r hr => mem_trace_of_left (hrevealed r hr)) ?_
    rcases settle_error hsettle with hlate | htimeout
    · exact hwhen.late s e hsent hlate
    · rw [finalTx_none] at htimeout
      cases hr : s.revealSigned with
      | none =>
        rw [hr] at htimeout
        exact .inl htimeout
      | some r =>
        rw [hr] at htimeout
        exact .inr ⟨r, hr, htimeout⟩

theorem atomic_of_when (hwhen : AtomicWhen H S W) : Atomic W (submitAction H C S W) := by
  rcases submitAction_cases hwhen.reveal with ⟨e, he, hquiet⟩ | ⟨s, hs, hc⟩
  · exact atomic_of_staysInside hquiet
  have hsig := signatures_stage hs
  have hordered : (submitAction H C S W).Always (ReleasedPrepared W) [] := by
    refine always_bind.2 ⟨always_of_forall fun t ht pre hrel => ?_, fun s' hs' => ?_⟩
    · rw [(each_stage t ht).releases] at hrel
      cases hrel
    rw [hs] at hs'
    obtain rfl := Except.ok.inj hs'
    -- whatever leaves, leaves after the first signatures
    rw [prepareChunkReveal_of_single hc, bind_of_ok rfl]
    refine always_of_forall fun t _ pre _ encoded hencoded tx htx => ?_
    refine (hsig.prepared hc hencoded tx htx).mono fun u hu => ?_
    exact List.mem_append.2 (.inl hu)
  rw [submitAction_of_single hs hc] at hordered ⊢
  have hreleased : ∀ t ∈ (deliver H C S W s).trace, Released s t := each_deliver
  refine ⟨hordered, ?_, ?_⟩
  · intro e _ hnone t ht
    rcases List.mem_append.1 ht with hmem | hmem
    · exact (each_stage t hmem).releases
    · rcases hreleased t hmem with h | (rfl | rfl) | ⟨r, -, rfl | rfl⟩
      · exact h.releases
      · exact absurd ht (hnone _ _)
      · rfl
      · exact absurd ht (hnone _ _)
      · rfl
  · rintro e he ⟨tx, signed, hmem⟩
    refine deliver_carries hwhen hs hc he ⟨tx, signed, ?_⟩
    rcases List.mem_append.1 hmem with hmem | hmem
    · exact absurd (each_stage _ hmem) id
    · exact hmem

/-- The signed first transaction of a chunked action leaves before its reveal exists. -/
theorem not_ordered_of_asks (hs : (stage S W).outcome = .ok s) (h : AsksReveal S W s) :
    ¬(submitAction H C S W).Always (ReleasedPrepared W) [] := by
  intro hordered
  have hchunk := (always_bind.1 ((always_bind.1 hordered).2 s hs)).1
  rw [prepareChunkReveal, if_pos h.chunked] at hchunk
  have hspend := (always_bind.1 ((always_bind.1 hchunk).2 () h.announced)).1
  rw [spendP2sh_of_asks h] at hspend
  have hmem : SubmissionTx.chunkReveal ∈ requiredTxs s.encoded := by
    simp [requiredTxs, h.chunked]
  have hprepared := (always_call.1 hspend rfl s.encoded (signatures_stage hs).encoded _ hmem)
  rcases List.mem_append.1 hprepared.reconciled with hrec | hrec
  · exact each_stage _ hrec rfl
  · simp [progress] at hrec

/-- The errors that a submission of a first transaction ends with. -/
theorem Atomic.carries (h : Atomic W (submitAction H C S W)) (hs : (stage S W).outcome = .ok s)
    (hc : isChunked s.encoded = false) (he : (deliver H C S W s).outcome = .error e)
    (haccepted : ∃ tx signed, .accepted tx signed ∈ (deliver H C S W s).trace) :
    ErrorCarries ((stage S W).trace ++ (deliver H C S W s).trace) e := by
  rw [submitAction_of_single hs hc] at h
  obtain ⟨tx, signed, hmem⟩ := haccepted
  exact h.carried e he ⟨tx, signed, List.mem_append.2 (.inr hmem)⟩

/-- The network has the first transaction only. -/
theorem ErrorCarries.commit (hs : (stage S W).outcome = .ok s)
    (honly : ∀ tx signed, .accepted tx signed ∈ (deliver H C S W s).trace →
      tx = .transaction ∧ signed = s.signed)
    (h : ErrorCarries ((stage S W).trace ++ (deliver H C S W s).trace) e) : CarriesCommit s e := by
  have haccepted : ∀ tx signed,
      .accepted tx signed ∈ (stage S W).trace ++ (deliver H C S W s).trace →
      tx = .transaction ∧ signed = s.signed := by
    intro tx signed hmem
    rcases List.mem_append.1 hmem with hmem | hmem
    · exact absurd (each_stage _ hmem) id
    · exact honly tx signed hmem
  refine ⟨?_, fun r hr => ?_⟩
  · obtain ⟨tx, signed, hmem, hcarries⟩ := h.txid
    obtain ⟨-, rfl⟩ := haccepted tx signed hmem
    exact hcarries
  · have hsig := signatures_stage hs
    have htruthy : (s.encoded.field "revealPsbt").truthy = true := by
      rw [← hsig.revealSigned, hr]
      rfl
    obtain ⟨signed, hsigned⟩ := (hsig.reveal htruthy).signed
    obtain rfl : r = signed := by
      rcases hsig.signed _ hsigned _ _ rfl with h | ⟨-, h⟩
      · cases h
      · rw [hr] at h
        exact Option.some.inj h
    refine h.reveal .envelopeReveal r (by decide) (List.mem_append.2 (.inl hsigned)) ?_
    intro hmem
    cases (haccepted _ _ hmem).1

theorem release_of_lost (h : CommitSent S W s) (hlost : W.broadcastTx .transaction = .error e)
    (hreached : W.reached .transaction = true) : release W s none = ⟨.error e,
      (progress W "broadcasting" [("txid", str s.signed.txid)]).trace ++
        [.broadcast .transaction s.signed.txHex, .accepted .transaction s.signed]⟩ := by
  have hb := broadcastTx_of_lost h.bytes hlost hreached
  rw [release, bind_of_ok h.announced, hb, bind_of_error rfl]

theorem release_of_between {r : SignedTx} (h : CommitSent S W s)
    (hcommit : W.broadcastTx .transaction = .ok ()) (hr : s.revealSigned = some r)
    (hbetween : W.progress "envelope_revealing" = .error e) : release W s none = ⟨.error e,
      (progress W "broadcasting" [("txid", str s.signed.txid)]).trace ++
        ([.broadcast .transaction s.signed.txHex, .accepted .transaction s.signed] ++
          (progress W "envelope_revealing" [("commitTxid", str s.signed.txid)]).trace)⟩ := by
  have hb := broadcastTx_of_ok h.bytes hcommit
  have he : releaseEnvelope W s =
      ⟨.error e, (progress W "envelope_revealing" [("commitTxid", str s.signed.txid)]).trace⟩ := by
    unfold releaseEnvelope
    rw [hr]
    exact bind_of_error hbetween
  rw [release, bind_of_ok h.announced, hb, bind_of_ok rfl, he, bind_of_error rfl]

theorem release_of_allSent (h : AllSent S W s) : (release W s none).outcome = .ok () := by
  refine bind_eq_ok.2 ⟨(), h.announced, bind_eq_ok.2 ⟨(), ?_, ?_⟩⟩
  · rw [broadcastTx_of_ok h.bytes h.commit]
  · refine bind_eq_ok.2 ⟨(), ?_, rfl⟩
    unfold releaseEnvelope
    split
    · next r hr =>
      obtain ⟨hp, hbytes, hb⟩ := h.reveal r hr
      refine bind_eq_ok.2 ⟨(), hp, ?_⟩
      rw [outcome_catching, broadcastTx_of_ok hbytes hb]
      rfl
    · rfl

theorem when_of_atomic (h : Atomic W (submitAction H C S W)) : AtomicWhen H S W where
  reveal := fun s hs hasks => not_ordered_of_asks hs hasks h.ordered
  lost := by
    intro s e hsent hlost hreached
    have hrelease := release_of_lost hsent hlost hreached
    have hdeliver : deliver H C S W s = ⟨.error e, (release W s none).trace⟩ :=
      bind_of_error (by rw [hrelease])
    refine ErrorCarries.commit hsent.staged ?_
      (h.carries hsent.staged hsent.single (by rw [hdeliver]) ⟨.transaction, s.signed, ?_⟩)
    · intro tx signed hmem
      rw [hdeliver, hrelease] at hmem
      simpa [progress] using hmem
    · rw [hdeliver, hrelease]
      simp
  between := by
    intro s r e hsent hcommit hr hbetween
    have hrelease := release_of_between hsent hcommit hr hbetween
    have hdeliver : deliver H C S W s = ⟨.error e, (release W s none).trace⟩ :=
      bind_of_error (by rw [hrelease])
    refine ErrorCarries.commit hsent.staged ?_
      (h.carries hsent.staged hsent.single (by rw [hdeliver]) ⟨.transaction, s.signed, ?_⟩)
    · intro tx signed hmem
      rw [hdeliver, hrelease] at hmem
      simpa [progress] using hmem
    · rw [hdeliver, hrelease]
      simp
  late := by
    intro s e hsent hlate
    have hrelease := release_of_allSent hsent
    obtain ⟨-, haccepted, -⟩ := release_ok hrelease
    have hcarries := h.carries hsent.staged hsent.single
      (bind_eq_error.2 (.inr ⟨(), hrelease, settle_of_lateError hlate⟩))
      ⟨.transaction, s.signed, mem_trace_of_left haccepted⟩
    obtain ⟨tx, signed, hmem, htxid⟩ := hcarries.txid
    rcases List.mem_append.1 hmem with hmem | hmem
    · exact absurd (each_stage _ hmem) id
    rcases each_deliver _ hmem with ⟨_, _, h⟩ | (h | h) | ⟨r, hr, h | h⟩
    · cases h
    · cases h
    · obtain ⟨rfl, rfl⟩ : tx = .transaction ∧ signed = s.signed := by simpa using h
      exact .inl htxid
    · cases h
    · obtain ⟨rfl, rfl⟩ : tx = .envelopeReveal ∧ signed = r := by simpa using h
      exact .inr ⟨signed, hr, htxid⟩

/-- Signed bytes leave a submission only when all its transactions are prepared, and its errors say
what left, exactly when no chunked action gets to its reveal and what fails after a broadcast names
a transaction. -/
theorem submitAction_atomic_iff (H : Host) (C : TxCodec) (S : SubmitCall) (W : SubmitWorld) :
    Atomic W (submitAction H C S W) ↔ AtomicWhen H S W :=
  ⟨when_of_atomic, atomic_of_when⟩

/-! ### Runs -/

/-- A submission of a text with a key. -/
def sampleSubmit : SubmitCall where
  actionData := .obj [("action", str "SEND"), ("params", .obj [])]
  encoderOpts := .obj [("pubkey", str "sender")]
  opts := .obj [("wif", str "key")]

/-- Nothing can be read. -/
def sampleCodec : TxCodec := ⟨fun _ => none, fun _ => none, fun _ => none⟩

/-- Every gate passes, every signer signs, and the network takes what it is given; the encoder uses
`encoding`, and an explorer is there or not. -/
def sampleWorld (encoding : String) (explorer : Except Js Unit) : SubmitWorld where
  progress := fun _ => .ok ()
  requireEncoder := .ok ()
  assertMainnetLaunched := .ok ()
  assertFresh := .ok ()
  resolveTicks := .ok
  resolveAddresses := .ok
  createAction := fun _ => .ok (.obj [("actionString", str "SEND|0|A|1|b")])
  createTx := .ok (.obj [("psbt", str "aa"), ("encoding", str encoding)])
  envelopeFunding := .ok ()
  reconcile := fun _ => .ok ()
  bind := fun _ => .ok ()
  signer := none
  sign := fun _ => .ok ⟨"bb", "t1"⟩
  spendP2sh := .ok (.obj [("psbt", str "cc")])
  broadcastTx := fun _ => .ok ()
  reached := fun _ => true
  explorer
  polls := []

def missingExplorer : Js := sdkError "SDKConfigError" "MISSING_EXPLORER" []

/-- A chunked action leaves with its first transaction before its reveal is there; an explorer that
is missing after the broadcast ends the submission with an error that names no transaction. -/
theorem submitAction_notAtomic :
    ¬Atomic (sampleWorld "P2SH" (.ok ()))
        (submitAction plainHost sampleCodec sampleSubmit (sampleWorld "P2SH" (.ok ()))) ∧
      ¬Atomic (sampleWorld "OP_RETURN" (.error missingExplorer))
        (submitAction plainHost sampleCodec sampleSubmit
          (sampleWorld "OP_RETURN" (.error missingExplorer))) := by
  constructor
  · intro h
    exact not_ordered_of_asks (s := ⟨_, _, _, ⟨"bb", "t1"⟩, none⟩) rfl
      ⟨rfl, rfl, rfl, by decide, by decide⟩ h.ordered
  · intro h
    have hcarries := (when_of_atomic h).late ⟨_, _, _, ⟨"bb", "t1"⟩, none⟩
      (markConfirmationTimeout "t1" missingExplorer)
      ⟨⟨rfl, rfl, rfl, by decide⟩, rfl, fun r hr => by cases hr⟩ (.explorer rfl rfl rfl)
    have hmark : markConfirmationTimeout "t1" missingExplorer = missingExplorer := rfl
    rw [hmark] at hcarries
    rcases hcarries with (hc | hc | hc) | ⟨r, hr, -⟩
    · cases hc
    · cases hc
    · cases hc
    · cases hr

end XChainSdk
