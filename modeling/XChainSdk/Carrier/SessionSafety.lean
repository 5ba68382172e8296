import XChainSdk.Carrier.ReleaseOrder
import XChainSdk.Carrier.WalletSession
import XChainSdk.Lib.Runs

/-!
# What a wallet session offers

* `SafeOffer` : a set with no output that the session has spent, no output twice, and no speculative
  output but its own change.
* `Careful` : what a step needs: a tracker that names each output once and in the way the cache
  does, a first refresh before the first broadcast, and submissions that fail before they broadcast,
  spend what their PSBT spends, and pay their change to the session.
* `session_offers_safe` : in a run of such steps every offer is safe.
-/

namespace XChainSdk

open Js Traced

/-! ### Outputs -/

/-- The number of an output: a number, or the text of one. -/
def voutOf : Js → Option ℕ
  | .num x => x.safeNat?
  | .str s => (stringToNumber s).safeNat?
  | _ => none

/-- The output that an entry of a list names, whatever the case of its id. -/
def outpointOf (u : Js) : Option Outpoint :=
  match u.field "txid", voutOf (u.field "vout") with
  | .str txid, some vout => some ⟨asciiLower txid, vout, asciiLower_asciiLower txid⟩
  | _, _ => none

/-- An entry that names an output has its key. -/
def WellSpelled (u : Js) : Prop := ∀ o, outpointOf u = some o → cachedKey u = some o.key

/-- A list of the tracker: well spelled, and no output twice. -/
structure TrackerView (us : List Js) : Prop where
  spelled : ∀ u ∈ us, WellSpelled u
  once : (us.filterMap outpointOf).Nodup

theorem get_entry_txid (u : Utxo) : u.entry.get "txid" = some (str u.outpoint.txid) := rfl

theorem get_entry_vout (u : Utxo) :
    u.entry.get "vout" = some (num (.fin u.outpoint.vout)) := rfl

theorem cachedKey_entry (u : Utxo) : cachedKey u.entry = some u.outpoint.key := by
  simp only [cachedKey, get_entry_txid, get_entry_vout, Option.bind_eq_bind, Option.bind_some,
    Outpoint.key]
  simp [toText]

theorem voutOf_num (x : JsNum) : voutOf (num x) = x.safeNat? := rfl

theorem voutOf_natCast {n m : ℕ} (h : voutOf (num (.fin n)) = some m) : m = n := by
  rw [voutOf_num] at h
  obtain ⟨heq, -⟩ := JsNum.safeNat?_eq_some h
  have hcast : (n : ℚ) = m := JsNum.fin.inj heq
  exact (Nat.cast_injective hcast).symm

theorem outpointOf_of_fields {u : Js} {txid : String} {vout : Js} {o : Outpoint}
    (htxid : u.field "txid" = str txid) (hvout : u.field "vout" = vout)
    (h : outpointOf u = some o) : voutOf vout = some o.vout ∧ o.txid = asciiLower txid := by
  unfold outpointOf at h
  rw [htxid, hvout] at h
  cases hv : voutOf vout with
  | none => simp [hv] at h
  | some n =>
    rw [hv] at h
    obtain rfl := Option.some.inj h
    exact ⟨rfl, rfl⟩

theorem Outpoint.ext' {o o' : Outpoint} (htxid : o.txid = o'.txid) (hvout : o.vout = o'.vout) :
    o = o' := by
  cases o
  cases o'
  simp_all

theorem outpointOf_entry {u : Utxo} {o : Outpoint} (h : outpointOf u.entry = some o) :
    o = u.outpoint := by
  have hfield : u.entry.field "txid" = str u.outpoint.txid := rfl
  obtain ⟨hvout, htxid⟩ := outpointOf_of_fields hfield rfl h
  refine Outpoint.ext' ?_ (voutOf_natCast hvout)
  rw [htxid, u.outpoint.lower]

/-- The output is change of a transaction of the session. -/
def OwnOutput (K : SessionConfig) (sent : List RawTx) (u : Utxo) : Prop :=
  ∃ tx ∈ sent, ∃ script, K.codec.toOutputScript (str K.address) = some script ∧
    u ∈ tx.outputsTo script

/-- A set that can go to the encoder. -/
structure SafeOffer (K : SessionConfig) (o : Offer) : Prop where
  unspent : ∀ e ∈ o.set, ∀ p, outpointOf e.entry = some p → ∀ tx ∈ o.sent, p ∉ tx.inputs
  once : (o.set.filterMap fun e => outpointOf e.entry).Nodup
  own : ∀ u, .speculative u ∈ o.set → OwnOutput K o.sent u

/-! ### What a step needs -/

/-- The transaction that the encoder hands out to be signed. -/
def SubmitWorld.psbt (W : SubmitWorld) : SubmissionTx → Option Js
  | .transaction => W.createTx.toOption.map fun encoded => encoded.field "psbt"
  | .envelopeReveal => W.createTx.toOption.map fun encoded => encoded.field "revealPsbt"
  | .chunkReveal => W.spendP2sh.toOption.map fun result => result.field "psbt"

/-- What a submission needs for the cache to follow it. -/
structure CarefulSubmission (K : SessionConfig) (c : SessionCache) (call : SubmitCall)
    (W : SubmitWorld) : Prop where
  /-- it does not fail after a broadcast -/
  whole : ∀ e, (submitAction K.host K.codec call W).outcome = .error e →
    broadcastTxs K.codec (submitAction K.host K.codec call W).trace = []
  /-- a signature leaves the inputs of a transaction as they are -/
  inputs : ∀ tx psbt signed raw, W.psbt tx = some psbt → W.signs tx signed →
    K.codec.transaction signed.txHex = some raw →
    ∃ inputs, K.codec.psbtInputs psbt = some inputs ∧ raw.inputs ⊆ inputs
  /-- what it pays to its change address, it pays to the session -/
  change : ∀ raw ∈ broadcastTxs K.codec (submitAction K.host K.codec call W).trace,
    ∀ script, K.codec.toOutputScript call.changeAddress = some script → raw.outputsTo script ≠ [] →
      K.codec.toOutputScript (str K.address) = some script
  /-- the tracker has not listed its change before it ends -/
  fresh : ∀ raw ∈ broadcastTxs K.codec (submitAction K.host K.codec call W).trace,
    ∀ script, K.codec.toOutputScript call.changeAddress = some script →
      ∀ u ∈ raw.outputsTo script, u.outpoint.key ∉ c.utxos.filterMap cachedKey

/-- What a step needs of its event and of the state before it. -/
def Careful (K : SessionConfig) (s : SessionState) : SessionEvent → Prop
  | .submit call => call.explicit = true ∨ s.cache.addressed = true ∨ s.sent = []
  | .refresh => s.cache.addressed = true ∨ s.sent = []
  | .pulled (some answer) | .refreshed (some answer) => TrackerView (trackedList answer)
  | .pulled none | .refreshed none => True
  | .settled W => ∀ call, s.phase = .submitting call → CarefulSubmission K s.cache call W

/-! ### One submission -/

variable {C : TxCodec} {S : SubmitCall} {W : SubmitWorld} {H : Host} {s : Staged}
  {phase2 : Option Phase2}

/-- The transactions of a submission, by their part in it. -/
def SentAs (s : Staged) (phase2 : Option Phase2) (tx : SubmissionTx) (signed : SignedTx) : Prop :=
  match tx with
  | .transaction => signed = s.signed
  | .envelopeReveal => s.revealSigned = some signed
  | .chunkReveal => ∃ p, phase2 = some p ∧ signed = p.spendSigned

def AcceptedAs (s : Staged) (phase2 : Option Phase2) (t : SubmitEvent) : Prop :=
  ∀ tx signed, t = .accepted tx signed → SentAs s phase2 tx signed

theorem each_broadcastTx_acceptedAs {tx : SubmissionTx} {signed : SignedTx}
    (h : SentAs s phase2 tx signed) : (broadcastTx W tx signed).Each (AcceptedAs s phase2) := by
  refine each_broadcastTx.mono ?_
  rintro t (rfl | rfl) tx' signed' heq
  · cases heq
  · cases heq
    exact h

theorem each_release_acceptedAs : (release W s phase2).Each (AcceptedAs s phase2) := by
  have htold : ∀ step data, (progress W step data).Each (AcceptedAs s phase2) := by
    intro step data
    refine each_progress.2 ?_
    rintro tx signed ⟨⟩
  have hcommit : SentAs s phase2 .transaction s.signed := rfl
  refine (htold _ _).bind fun _ => (each_broadcastTx_acceptedAs hcommit).bind fun _ => ?_
  refine Each.bind ?_ fun _ => ?_
  · unfold releaseEnvelope
    split
    · next r hr =>
      exact (htold _ _).bind fun _ => (each_catching _).2 (each_broadcastTx_acceptedAs hr)
    · exact each_pure
  · unfold releaseChunks
    split
    · next p =>
      exact (each_catching _).2 (each_broadcastTx_acceptedAs ⟨p, rfl, rfl⟩)
    · exact each_pure

theorem settle_ok {r : SubmitResult} (h : (settle H C S W s phase2).outcome = .ok r) :
    (shapeResult C S s phase2).Adds r := by
  obtain ⟨r', hindexed, h⟩ := bind_eq_ok.1 h
  obtain ⟨-, hadds⟩ := waitIndexed_ok hindexed
  refine hadds.trans ?_
  unfold settleContract at h
  split at h
  · next gate _ =>
    obtain ⟨⟨⟩, -, h⟩ := bind_eq_ok.1 h
    obtain ⟨r'', hwaits, h⟩ := bind_eq_ok.1 h
    obtain ⟨⟨⟩, -, h⟩ := bind_eq_ok.1 h
    obtain rfl := Except.ok.inj h
    change (gateWaits S W gate r').outcome.mapError _ = _ at hwaits
    cases hout : (gateWaits S W gate r').outcome with
    | error e =>
      rw [hout] at hwaits
      cases hwaits
    | ok r''' =>
      rw [hout] at hwaits
      obtain rfl := Except.ok.inj hwaits
      exact (gateWaits_ok hout).2.2
  · obtain rfl := Except.ok.inj h
    exact ⟨rfl, rfl, rfl⟩

theorem accepted_of_catching {tx : SubmissionTx} {signed : SignedTx} {g : Js → Js}
    (h : ((broadcastTx W tx signed).catching g).outcome = .ok ()) :
    .accepted tx signed ∈ ((broadcastTx W tx signed).catching g).trace := by
  rw [outcome_catching] at h
  cases hout : (broadcastTx W tx signed).outcome with
  | error e =>
    rw [hout] at h
    cases h
  | ok u => exact (broadcastTx_ok hout).2.2

theorem mem_release (h : (release W s phase2).outcome = .ok ()) :
    ∀ tx signed, SentAs s phase2 tx signed →
      .accepted tx signed ∈ (release W s phase2).trace := by
  obtain ⟨⟨⟩, hp, h⟩ := bind_eq_ok.1 h
  obtain ⟨⟨⟩, hcommit, h⟩ := bind_eq_ok.1 h
  obtain ⟨⟨⟩, henvelope, hchunks⟩ := bind_eq_ok.1 h
  intro tx signed hsent
  cases tx with
  | transaction =>
    obtain rfl := hsent
    exact mem_trace_of_right hp (mem_trace_of_left (broadcastTx_ok hcommit).2.2)
  | envelopeReveal =>
    refine mem_trace_of_right hp (mem_trace_of_right hcommit (mem_trace_of_left ?_))
    have hr : s.revealSigned = some signed := hsent
    unfold releaseEnvelope at henvelope ⊢
    simp only [hr] at henvelope ⊢
    obtain ⟨⟨⟩, hp, henvelope⟩ := bind_eq_ok.1 henvelope
    exact mem_trace_of_right hp (accepted_of_catching henvelope)
  | chunkReveal =>
    refine mem_trace_of_right hp (mem_trace_of_right hcommit (mem_trace_of_right henvelope ?_))
    obtain ⟨p, rfl, rfl⟩ := hsent
    exact accepted_of_catching hchunks

theorem each_prepareChunkReveal_acceptedAs :
    (prepareChunkReveal S W s).Each (AcceptedAs s phase2) := by
  unfold prepareChunkReveal
  split
  · refine Each.bind (by simp [AcceptedAs]) fun _ => Each.bind ?_ fun _ => ?_
    · unfold spendP2sh
      split_ifs <;> simp [AcceptedAs]
    · refine Each.bind (by simp [AcceptedAs]) fun _ => ?_
      refine Each.bind (by simp [AcceptedAs]) fun _ => ?_
      exact Each.bind (by simp [AcceptedAs]) fun _ => each_pure
  · exact each_pure

theorem prepareChunkReveal_ok {p : Phase2}
    (h : (prepareChunkReveal S W s).outcome = .ok (some p)) :
    W.spendP2sh = .ok p.spendResult ∧ W.signs .chunkReveal p.spendSigned := by
  unfold prepareChunkReveal at h
  split at h
  · obtain ⟨⟨⟩, -, h⟩ := bind_eq_ok.1 h
    obtain ⟨spendResult, hspend, h⟩ := bind_eq_ok.1 h
    obtain ⟨⟨⟩, -, h⟩ := bind_eq_ok.1 h
    obtain ⟨⟨⟩, -, h⟩ := bind_eq_ok.1 h
    obtain ⟨spendSigned, hsigned, h⟩ := bind_eq_ok.1 h
    obtain rfl := Option.some.inj (Except.ok.inj h)
    refine ⟨?_, by simpa [SubmitWorld.signs] using hsigned⟩
    unfold spendP2sh at hspend
    split_ifs at hspend
    · cases hspend
    · cases hspend
    · cases hspend
    · exact hspend
  · cases Except.ok.inj h

/-- What is known of a submission that ends well: its transactions are what the encoder handed out,
signed, and the network has them all. -/
structure Submitted (C : TxCodec) (S : SubmitCall) (W : SubmitWorld) (t : List SubmitEvent)
    (s : Staged) (phase2 : Option Phase2) (result : SubmitResult) : Prop where
  adds : (shapeResult C S s phase2).Adds result
  handed : ∀ tx signed, SentAs s phase2 tx signed → W.signs tx signed ∧
    ∃ psbt, W.psbt tx = some psbt ∧ (psbt, signed) ∈ sentTxs s phase2
  accepted : ∀ tx signed, .accepted tx signed ∈ t ↔ SentAs s phase2 tx signed

theorem submitAction_ok {result : SubmitResult} (h : (submitAction H C S W).outcome = .ok result) :
    ∃ s phase2, Submitted C S W (submitAction H C S W).trace s phase2 result := by
  obtain ⟨s, hs, h⟩ := bind_eq_ok.1 h
  obtain ⟨phase2, hphase2, h⟩ := bind_eq_ok.1 h
  obtain ⟨⟨⟩, hrelease, hsettle⟩ := bind_eq_ok.1 h
  have hsig := signatures_stage hs
  refine ⟨s, phase2, settle_ok hsettle, ?_, fun tx signed => ⟨fun hmem => ?_, fun hsent => ?_⟩⟩
  · intro tx signed hsent
    cases tx with
    | transaction =>
      obtain rfl := hsent
      refine ⟨hsig.signs, s.encoded.field "psbt", ?_, by simp [sentTxs]⟩
      simp [SubmitWorld.psbt, hsig.encoded, Except.toOption]
    | envelopeReveal =>
      have hr : s.revealSigned = some signed := hsent
      refine ⟨hsig.signsReveal signed hr, s.encoded.field "revealPsbt", ?_, by simp [sentTxs, hr]⟩
      simp [SubmitWorld.psbt, hsig.encoded, Except.toOption]
    | chunkReveal =>
      obtain ⟨p, rfl, rfl⟩ := hsent
      obtain ⟨hspend, hsigns⟩ := prepareChunkReveal_ok hphase2
      refine ⟨hsigns, p.spendResult.field "psbt", ?_, by simp [sentTxs]⟩
      simp [SubmitWorld.psbt, hspend, Except.toOption]
  · have heach : (submitAction H C S W).Each (AcceptedAs s phase2) := by
      refine each_bind.2 ⟨each_stage.mono ?_, fun s' hs' => ?_⟩
      · rintro t ht tx signed rfl
        exact absurd ht id
      obtain rfl := Except.ok.inj (hs.symm.trans hs')
      refine each_bind.2 ⟨each_prepareChunkReveal_acceptedAs, fun p hp => ?_⟩
      obtain rfl := Except.ok.inj (hphase2.symm.trans hp)
      refine each_release_acceptedAs.bind fun _ => each_settle.mono ?_
      rintro t ⟨step, data, rfl⟩ tx signed ⟨⟩
    exact heach _ hmem tx signed rfl
  · exact mem_trace_of_right hs (mem_trace_of_right hphase2 (mem_trace_of_left
      (mem_release hrelease tx signed hsent)))

theorem exists_sentAs {x : Js × SignedTx} (h : x ∈ sentTxs s phase2) :
    ∃ tx, SentAs s phase2 tx x.2 := by
  unfold sentTxs at h
  rcases List.mem_append.1 h with h | h
  · rcases List.mem_append.1 h with h | h
    · obtain rfl := List.mem_singleton.1 h
      exact ⟨.transaction, rfl⟩
    · obtain ⟨r, hr, rfl⟩ := Option.map_eq_some_iff.1 (Option.mem_toList.1 h)
      exact ⟨.envelopeReveal, hr⟩
  · obtain ⟨p, hp, rfl⟩ := Option.map_eq_some_iff.1 (Option.mem_toList.1 h)
    exact ⟨.chunkReveal, p, hp, rfl⟩

theorem mem_broadcastTxs {t : List SubmitEvent} {raw : RawTx} : raw ∈ broadcastTxs C t ↔
    ∃ tx signed, .accepted tx signed ∈ t ∧ C.transaction signed.txHex = some raw := by
  unfold broadcastTxs
  rw [List.mem_filterMap]
  constructor
  · rintro ⟨e, he, hraw⟩
    cases e with
    | accepted tx signed => exact ⟨tx, signed, he, hraw⟩
    | _ => cases hraw
  · rintro ⟨tx, signed, hmem, hraw⟩
    exact ⟨_, hmem, hraw⟩

/-- Every input of a broadcast transaction is reported as spent. -/
theorem Submitted.spent {t : List SubmitEvent} {result : SubmitResult} {raw : RawTx}
    (h : Submitted C S W t s phase2 result) (hraw : raw ∈ broadcastTxs C t)
    (hinputs : ∀ tx psbt signed raw, W.psbt tx = some psbt → W.signs tx signed →
      C.transaction signed.txHex = some raw →
      ∃ inputs, C.psbtInputs psbt = some inputs ∧ raw.inputs ⊆ inputs) :
    raw.inputs ⊆ result.spentInputs := by
  obtain ⟨tx, signed, haccepted, hdecoded⟩ := mem_broadcastTxs.1 hraw
  obtain ⟨hsigns, psbt, hpsbt, hsent⟩ := h.handed tx signed ((h.accepted tx signed).1 haccepted)
  obtain ⟨inputs, hpsbtInputs, hsub⟩ := hinputs tx psbt signed raw hpsbt hsigns hdecoded
  rw [h.adds.spentInputs]
  intro o ho
  refine List.mem_flatMap.2 ⟨(psbt, signed), hsent, ?_⟩
  rw [extractSpentInputs, hpsbtInputs]
  exact hsub ho

/-- Every reported change output is one of a broadcast transaction. -/
theorem Submitted.change {t : List SubmitEvent} {result : SubmitResult} {u : Utxo}
    (h : Submitted C S W t s phase2 result) (hu : u ∈ result.changeOutputs) :
    ∃ raw ∈ broadcastTxs C t, ∃ script, C.toOutputScript S.changeAddress = some script ∧
      u ∈ raw.outputsTo script := by
  rw [h.adds.changeOutputs] at hu
  obtain ⟨x, hx, hu⟩ := List.mem_flatMap.1 (List.mem_of_mem_filter hu)
  obtain ⟨tx, hsent⟩ := exists_sentAs hx
  unfold extractChangeOutputs at hu
  split at hu
  · cases hu
  · split at hu
    · next script raw hscript hraw =>
      refine ⟨raw, mem_broadcastTxs.2 ⟨tx, x.2, (h.accepted tx x.2).2 hsent, hraw⟩, ?_⟩
      exact ⟨script, hscript, hu⟩
    · cases hu

/-! ### The cache -/

/-- What holds of the cache when the transactions `sent` are broadcast. -/
structure CacheInv (K : SessionConfig) (sent : List RawTx) (c : SessionCache) : Prop where
  marked : ∀ tx ∈ sent, ∀ o ∈ tx.inputs, o.key ∈ c.spent
  own : ∀ u ∈ c.speculative, OwnOutput K sent u
  view : TrackerView c.utxos
  chained : (c.speculative.map fun u => u.outpoint.key).Nodup
  apart : c.utxos.any isNullish = false →
    ∀ u ∈ c.speculative, u.outpoint.key ∉ c.utxos.filterMap cachedKey

variable {K : SessionConfig} {sent : List RawTx} {c : SessionCache}

/-- A first refresh forgets what is spent, so nothing may be broadcast before it. -/
theorem CacheInv.startRefresh (h : CacheInv K sent c) (hfirst : c.addressed = true ∨ sent = []) :
    CacheInv K sent c.startRefresh := by
  unfold SessionCache.startRefresh
  split
  · exact h
  · next haddressed =>
    obtain rfl : sent = [] := by
      rcases hfirst with hc | hc
      · exact absurd hc haddressed
      · exact hc
    exact ⟨by simp, by simp, h.view, by simp, by simp⟩

theorem CacheInv.finishRefresh {answer : Js} (h : CacheInv K sent c)
    (hview : TrackerView (trackedList answer)) : CacheInv K sent (c.finishRefresh answer).1 := by
  unfold SessionCache.finishRefresh
  dsimp only
  split
  · next hnullish =>
    refine ⟨h.marked, h.own, hview, h.chained, fun hc => ?_⟩
    rw [hnullish] at hc
    cases hc
  · refine ⟨h.marked, fun u hu => h.own u (List.mem_of_mem_filter hu), hview, ?_, ?_⟩
    · exact h.chained.sublist (List.filter_sublist.map _)
    · intro _ u hu
      have hkeep := List.of_mem_filter hu
      simp only [Bool.and_eq_true, Bool.not_eq_true', List.contains_eq_mem,
        decide_eq_false_iff_not] at hkeep
      exact hkeep.1

theorem mem_addSpeculative {u v : Utxo} (h : v ∈ (c.addSpeculative u).speculative) :
    v ∈ c.speculative ∨ v = u := by
  unfold SessionCache.addSpeculative at h
  split at h
  · exact .inl h
  · simpa using h

/-- What registering change leaves as it is. -/
theorem foldl_addSpeculative (us : List Utxo) (c : SessionCache) :
    (us.foldl SessionCache.addSpeculative c).utxos = c.utxos ∧
      (us.foldl SessionCache.addSpeculative c).spent = c.spent ∧
      (us.foldl SessionCache.addSpeculative c).addressed = c.addressed ∧
      (us.foldl SessionCache.addSpeculative c).stale = c.stale := by
  induction us generalizing c with
  | nil => exact ⟨rfl, rfl, rfl, rfl⟩
  | cons u us ih =>
    have hone : (c.addSpeculative u).utxos = c.utxos ∧ (c.addSpeculative u).spent = c.spent ∧
        (c.addSpeculative u).addressed = c.addressed ∧ (c.addSpeculative u).stale = c.stale := by
      unfold SessionCache.addSpeculative
      split <;> exact ⟨rfl, rfl, rfl, rfl⟩
    rw [List.foldl_cons, (ih _).1, (ih _).2.1, (ih _).2.2.1, (ih _).2.2.2]
    exact hone

theorem mem_foldl_addSpeculative {us : List Utxo} {c : SessionCache} {v : Utxo}
    (h : v ∈ (us.foldl SessionCache.addSpeculative c).speculative) : v ∈ c.speculative ∨ v ∈ us := by
  induction us generalizing c with
  | nil => exact .inl h
  | cons u us ih =>
    rcases ih h with h | h
    · rcases mem_addSpeculative h with h | rfl
      · exact .inl h
      · exact .inr (List.mem_cons_self ..)
    · exact .inr (List.mem_cons_of_mem _ h)

theorem nodup_foldl_addSpeculative {us : List Utxo} {c : SessionCache}
    (h : (c.speculative.map fun u => u.outpoint.key).Nodup) :
    ((us.foldl SessionCache.addSpeculative c).speculative.map fun u => u.outpoint.key).Nodup := by
  induction us generalizing c with
  | nil => exact h
  | cons u us ih =>
    refine ih ?_
    unfold SessionCache.addSpeculative
    split
    · exact h
    · next hnew =>
      simp only [Bool.or_eq_true, decide_eq_true_eq, List.contains_eq_mem, not_or] at hnew
      rw [List.map_append, List.nodup_append]
      refine ⟨h, by simp, ?_⟩
      rintro k hk k' hk' rfl
      obtain rfl := List.mem_singleton.1 hk'
      exact hnew.2 hk

theorem OwnOutput.mono {sent' : List RawTx} {u : Utxo} (h : OwnOutput K sent u)
    (hsub : sent ⊆ sent') : OwnOutput K sent' u := by
  obtain ⟨tx, htx, hscript⟩ := h
  exact ⟨tx, hsub htx, hscript⟩

/-- A submission that ends well. -/
theorem CacheInv.track {call : SubmitCall} {result : SubmitResult} (h : CacheInv K sent c)
    (hcareful : CarefulSubmission K c call W)
    (hrun : (submitAction K.host K.codec call W).outcome = .ok result) :
    CacheInv K (sent ++ broadcastTxs K.codec (submitAction K.host K.codec call W).trace)
      (track c result) := by
  obtain ⟨s, phase2, hsubmitted⟩ := submitAction_ok hrun
  obtain ⟨hutxos, hspent, -, -⟩ :=
    foldl_addSpeculative result.changeOutputs (c.markSpent result.spentInputs)
  refine ⟨?_, ?_, ?_, ?_, ?_⟩
  · intro tx htx o ho
    change o.key ∈ (result.changeOutputs.foldl SessionCache.addSpeculative _).spent
    rw [hspent]
    rcases List.mem_append.1 htx with htx | htx
    · exact List.mem_append.2 (.inr (h.marked tx htx o ho))
    · refine List.mem_append.2 (.inl (List.mem_map_of_mem ?_))
      exact hsubmitted.spent htx hcareful.inputs ho
  · intro u hu
    rcases mem_foldl_addSpeculative hu with hu | hu
    · exact (h.own u hu).mono (List.subset_append_left _ _)
    · obtain ⟨raw, hraw, script, hscript, hmem⟩ := hsubmitted.change hu
      refine ⟨raw, List.mem_append.2 (.inr hraw), script, ?_, hmem⟩
      exact hcareful.change raw hraw script hscript (List.ne_nil_of_mem hmem)
  · change TrackerView (result.changeOutputs.foldl SessionCache.addSpeculative _).utxos
    rw [hutxos]
    exact h.view
  · exact nodup_foldl_addSpeculative h.chained
  · change (result.changeOutputs.foldl SessionCache.addSpeculative _).utxos.any _ = _ → _
    intro hnullish u hu
    change _ ∉ (result.changeOutputs.foldl SessionCache.addSpeculative _).utxos.filterMap _
    rw [hutxos] at hnullish ⊢
    rcases mem_foldl_addSpeculative hu with hu | hu
    · exact h.apart hnullish u hu
    · obtain ⟨raw, hraw, script, hscript, hmem⟩ := hsubmitted.change hu
      exact hcareful.fresh raw hraw script hscript u hmem

/-! ### The sets -/

theorem SafeOffer.sublist {set set' : List CacheEntry} (h : SafeOffer K ⟨set, sent⟩)
    (hsub : set'.Sublist set) : SafeOffer K ⟨set', sent⟩ where
  unspent := fun e he => h.unspent e (hsub.subset he)
  once := h.once.sublist (hsub.filterMap _)
  own := fun u hu => h.own u (hsub.subset hu)

theorem wellSpelled_of_mem_entries (h : CacheInv K sent c) {e : CacheEntry}
    (he : e ∈ c.entries) : WellSpelled e.entry := by
  rcases List.mem_append.1 he with he | he
  · obtain ⟨u, hu, rfl⟩ := List.mem_map.1 he
    exact h.view.spelled u hu
  · obtain ⟨u, hu, rfl⟩ := List.mem_map.1 he
    intro o ho
    rw [outpointOf_entry ho]
    exact cachedKey_entry u

/-- The outputs that the entries of the cache name. -/
theorem filterMap_entries {α : Type} (f : Js → Option α) (c : SessionCache) :
    (c.entries.filterMap fun e => f e.entry) =
      c.utxos.filterMap f ++ c.speculative.filterMap fun u => f u.entry := by
  simp only [SessionCache.entries, List.filterMap_append, List.filterMap_map, Function.comp_def,
    CacheEntry.entry]

/-- The tracked outputs and the change of the session name different outputs. -/
theorem nodup_entries (h : CacheInv K sent c) (hnullish : c.utxos.any isNullish = false) :
    (c.entries.filterMap fun e => outpointOf e.entry).Nodup := by
  rw [filterMap_entries, List.nodup_append]
  refine ⟨h.view.once, ?_, ?_⟩
  · refine List.pairwise_filterMap.2 ((List.pairwise_map.1 h.chained).imp ?_)
    intro u v hne o ho o' ho' heq
    rw [outpointOf_entry ho, outpointOf_entry ho'] at heq
    exact hne (congrArg Outpoint.key heq)
  · intro o ho o' ho' heq
    subst heq
    obtain ⟨v, hv, hov⟩ := List.mem_filterMap.1 ho
    obtain ⟨u, hu, hou⟩ := List.mem_filterMap.1 ho'
    refine h.apart hnullish u hu (List.mem_filterMap.2 ⟨v, hv, ?_⟩)
    rw [h.view.spelled v hv o hov, outpointOf_entry hou]

/-- What the cache has available can be offered. -/
theorem CacheInv.safeOffer {set : List CacheEntry} (h : CacheInv K sent c)
    (hset : c.getAvailable = some set) : SafeOffer K ⟨set, sent⟩ := by
  unfold SessionCache.getAvailable at hset
  split at hset
  · cases hset
  · next hnullish =>
    obtain rfl := Option.some.inj hset
    refine ⟨?_, ?_, ?_⟩
    · intro e he o ho tx htx hspent
      have hkey := wellSpelled_of_mem_entries h (List.mem_of_mem_filter he) o ho
      have hkeep := List.of_mem_filter he
      rw [hkey] at hkeep
      simp [h.marked tx htx o hspent] at hkeep
    · exact (nodup_entries h (by simpa using hnullish)).sublist
        (List.filter_sublist.filterMap _)
    · intro u hu
      rcases List.mem_append.1 (List.mem_of_mem_filter hu) with he | he
      · obtain ⟨_, -, heq⟩ := List.mem_map.1 he
        cases heq
      · obtain ⟨v, hv, heq⟩ := List.mem_map.1 he
        obtain rfl := CacheEntry.speculative.inj heq
        exact h.own v hv

/-! ### Runs -/

/-- What holds in every state that careful steps reach. -/
structure WalletInv (K : SessionConfig) (s : SessionState) : Prop where
  cache : CacheInv K s.sent s.cache
  /-- the address is known when a refresh was started -/
  addressed : s.cache.stale = false ∨ s.pending ≠ 0 ∨
    (∃ call drained, s.phase = .pulling call drained) → s.cache.addressed = true
  offers : ∀ o ∈ s.offers, SafeOffer K o

theorem walletInv_start (K : SessionConfig) : WalletInv K {} where
  cache := ⟨by simp, by simp, ⟨by simp, by simp⟩, by simp, by simp⟩
  addressed := by simp
  offers := by simp

variable {s : SessionState}

theorem WalletInv.idle (h : WalletInv K s) : WalletInv K { s with phase := .idle } where
  cache := h.cache
  addressed := by
    rintro (hc | hc | ⟨_, _, hc⟩)
    · exact h.addressed (.inl hc)
    · exact h.addressed (.inr (.inl hc))
    · cases hc
  offers := h.offers

theorem chosenSet_sublist {call : SessionCall} {set set' : List CacheEntry}
    {chosen : Option (List CacheEntry)} (h : chosenSet call set = some chosen)
    (hset : set' ∈ chosen.toList) : set'.Sublist set := by
  unfold chosenSet at h
  dsimp only at h
  split_ifs at h
  all_goals
    obtain rfl := Option.some.inj h
  · cases hset
  · obtain rfl := List.mem_singleton.1 hset
    exact List.filter_sublist
  · obtain rfl := List.mem_singleton.1 hset
    exact List.Sublist.refl _

theorem WalletInv.offer {call : SessionCall} {set : List CacheEntry} (h : WalletInv K s)
    (hset : SafeOffer K ⟨set, s.sent⟩) : WalletInv K (offer K call s set) := by
  unfold XChainSdk.offer
  split
  · exact h.idle
  · next chosen hchosen =>
    refine ⟨h.cache, ?_, ?_⟩
    · rintro (hc | hc | ⟨_, _, hc⟩)
      · exact h.addressed (.inl hc)
      · exact h.addressed (.inr (.inl hc))
      · cases hc
    · intro o ho
      rcases List.mem_append.1 ho with ho | ho
      · exact h.offers o ho
      · obtain ⟨set', hset', rfl⟩ := List.mem_map.1 ho
        exact hset.sublist (chosenSet_sublist hchosen hset')

theorem startRefresh_of_addressed (h : c.addressed = true) : c.startRefresh = c := by
  rw [SessionCache.startRefresh, if_pos h]

theorem addressed_startRefresh (c : SessionCache) : c.startRefresh.addressed = true := by
  unfold SessionCache.startRefresh
  split
  · assumption
  · rfl

theorem addressed_finishRefresh (c : SessionCache) (answer : Js) :
    (c.finishRefresh answer).1.addressed = c.addressed := by
  unfold SessionCache.finishRefresh
  dsimp only
  split <;> rfl

theorem WalletInv.choose {call : SessionCall} {just : Bool} (h : WalletInv K s) :
    WalletInv K (choose K call s just) := by
  unfold XChainSdk.choose
  split
  · exact h.idle
  · next set hset =>
    split
    · next hdrained =>
      have haddressed : s.cache.addressed = true := by
        simp only [Bool.and_eq_true, Bool.not_eq_true'] at hdrained
        exact h.addressed (.inl hdrained.1.2)
      rw [startRefresh_of_addressed haddressed]
      exact ⟨h.cache, fun _ => haddressed, h.offers⟩
    · exact h.offer (h.cache.safeOffer hset)

theorem sessionStep_inv (s : SessionState) (e : SessionEvent) (h : WalletInv K s)
    (hcareful : Careful K s e) : WalletInv K (sessionStep K s e) := by
  cases e with
  | submit call =>
    unfold sessionStep
    dsimp only
    split
    · split
      · next hpulls =>
        -- The first pull names the address before anything was sent.
        have hfirst : s.cache.addressed = true ∨ s.sent = [] := by
          rcases hcareful with hc | hc
          · rw [SessionCall.pulls, hc] at hpulls
            cases hpulls
          · exact hc
        exact ⟨h.cache.startRefresh hfirst, fun _ => addressed_startRefresh _, h.offers⟩
      · exact h.choose
    · exact h
  | pulled answer =>
    unfold sessionStep
    dsimp only
    split
    · exact h.idle
    · next call drained answer hphase =>
      have haddressed : s.cache.addressed = true := h.addressed (.inr (.inr ⟨_, _, hphase⟩))
      -- The pull is folded in first; the choice is made on what it leaves.
      have hcache := h.cache.finishRefresh hcareful
      have hs : WalletInv K { s with cache := (s.cache.finishRefresh answer).1 } :=
        ⟨hcache, fun _ => (addressed_finishRefresh ..).trans haddressed, h.offers⟩
      split
      · exact hs.idle
      · split
        · split
          · exact hs.idle
          · next set hset => exact hs.offer (hcache.safeOffer hset)
        · exact hs.choose
    · exact h
  | settled W =>
    unfold sessionStep
    dsimp only
    split
    · next call hphase =>
      have hcall := hcareful call hphase
      have haddressed : s.cache.stale = false ∨ s.pending ≠ 0 ∨
          (∃ call drained, SessionPhase.idle = .pulling call drained) →
          s.cache.addressed = true := by
        rintro (hc | hc | ⟨_, _, hc⟩)
        · exact h.addressed (.inl hc)
        · exact h.addressed (.inr (.inl hc))
        · cases hc
      split
      · next result hrun =>
        -- Tracking changes spent marks and speculative outputs, neither the address nor the
        -- staleness.
        obtain ⟨-, -, haddr, hstale⟩ :=
          foldl_addSpeculative result.changeOutputs (s.cache.markSpent result.spentInputs)
        refine ⟨h.cache.track hcall hrun, fun hc => ?_, h.offers⟩
        refine haddr.trans (haddressed ?_)
        rcases hc with hc | hc
        · exact .inl (hstale.symm.trans hc)
        · exact .inr hc
      · next e hrun =>
        refine ⟨?_, haddressed, h.offers⟩
        -- A careful call that throws has broadcast nothing.
        change CacheInv K (s.sent ++ broadcastTxs _ _) s.cache
        rw [hcall.whole e hrun, List.append_nil]
        exact h.cache
    · exact h
  | refresh =>
    exact ⟨h.cache.startRefresh hcareful, fun _ => addressed_startRefresh _, h.offers⟩
  | refreshed answer =>
    unfold sessionStep
    dsimp only
    split
    · exact h
    · next hpending =>
      have haddressed : s.cache.addressed = true := h.addressed (.inr (.inl hpending))
      cases answer with
      | none => exact ⟨h.cache, fun _ => haddressed, h.offers⟩
      | some answer =>
        refine ⟨h.cache.finishRefresh hcareful, fun _ => ?_, h.offers⟩
        exact (addressed_finishRefresh ..).trans haddressed

/-- **Every set that a session brings is safe**, in every run of careful steps. -/
theorem session_offers_safe (K : SessionConfig) (es : List SessionEvent)
    (hrun : Runs.Along (sessionStep K) (Careful K) {} es) :
    ∀ o ∈ (sessionRun K {} es).offers, SafeOffer K o :=
  (Runs.Along.inv sessionStep_inv (walletInv_start K) hrun).offers

/-! ### Runs of a sample session -/

/-- An output that the tracker lists, and a transaction that spends it and pays change. -/
def sampleFunding : Outpoint := ⟨"a0", 0, by decide⟩

def sampleSpend : RawTx := ⟨"b0", by decide, [sampleFunding], [("own", .num (.fin 5))]⟩

def sampleEntry : Js := .obj [("txid", str "a0"), ("vout", .num (.fin 0))]

def sampleListed : Js := .arr [sampleEntry]

def sampleChange : Utxo := ⟨⟨"b0", 0, by decide⟩, .num (.fin 5), "own"⟩

/-- The session's address is `me`; every transaction of it is `sampleSpend`. -/
def sampleSession : SessionConfig where
  host := plainHost
  codec := {
    transaction := fun _ => some sampleSpend
    psbtInputs := fun _ => some [sampleFunding]
    toOutputScript := fun address => if address.isStr "me" then some "own" else none }
  address := "me"
  wif := "key"
  defaultOpts := []

/-- A submission that waits for the indexer, or not. -/
def sampleSubmission (waitForIndexer : Bool) : SessionCall where
  actionData := .obj [("action", str "SEND"), ("params", .obj [])]
  encoderOpts := []
  submitOpts := [("waitForIndexer", .bool waitForIndexer)]

/-- Two submissions; the second one spends the change of the first. -/
def sampleChain : List SessionEvent :=
  [.submit (sampleSubmission false), .pulled (some sampleListed),
    .settled (sampleWorld "OP_RETURN" (.ok ())), .submit (sampleSubmission false)]

/-- The first submission is broadcast, and its wait for the indexer times out. -/
def sampleTimeout : List SessionEvent :=
  [.submit (sampleSubmission true), .pulled (some sampleListed),
    .settled (sampleWorld "OP_RETURN" (.ok ())), .submit (sampleSubmission true)]

/-- The first submission brings its own outputs, so the first refresh comes after its broadcast. -/
def sampleOwnOutputs : List SessionEvent :=
  [.submit { sampleSubmission false with encoderOpts := [("utxos", sampleListed)] },
    .settled (sampleWorld "OP_RETURN" (.ok ())), .submit (sampleSubmission false),
    .pulled (some sampleListed)]

theorem outpointOf_sampleEntry : outpointOf sampleEntry = some sampleFunding := rfl

theorem trackerView_sampleListed : TrackerView (trackedList sampleListed) := by
  refine ⟨fun u hu o ho => ?_, ?_⟩
  · obtain rfl := List.mem_singleton.1 hu
    obtain rfl := Option.some.inj (outpointOf_sampleEntry.symm.trans ho)
    rfl
  · change (List.filterMap outpointOf [sampleEntry]).Nodup
    rw [List.filterMap_cons_some outpointOf_sampleEntry]
    simp

theorem careful_sampleChain :
    Runs.Along (sessionStep sampleSession) (Careful sampleSession) {} sampleChain := by
  refine ⟨.inr (.inr rfl), trackerView_sampleListed, ?_, .inr (.inl rfl), trivial⟩
  intro call hcall
  obtain rfl := SessionPhase.submitting.inj hcall
  refine ⟨?_, ?_, ?_, ?_⟩
  · intro e he
    cases he
  · intro tx psbt signed raw _ _ hraw
    obtain rfl := Option.some.inj hraw
    exact ⟨[sampleFunding], rfl, List.Subset.refl _⟩
  · intro raw _ script hscript _
    exact hscript
  · intro raw hraw script hscript u hu hmem
    obtain rfl : raw = sampleSpend := List.mem_singleton.1 hraw
    obtain rfl : "own" = script := Option.some.inj hscript
    obtain rfl : u = sampleChange := List.mem_singleton.1 hu
    have hkey : sampleChange.outpoint.key = "a0:0" := List.mem_singleton.1 hmem
    revert hkey
    decide

/-- The change of the first submission is offered to the second. -/
theorem session_offers_safe_chain :
    (∃ sent, (sessionRun sampleSession {} sampleChain).offers =
      [⟨[.tracked sampleEntry], []⟩, ⟨[.speculative sampleChange], sent⟩]) ∧
      ∀ o ∈ (sessionRun sampleSession {} sampleChain).offers, SafeOffer sampleSession o :=
  ⟨⟨[sampleSpend], rfl⟩, session_offers_safe sampleSession sampleChain careful_sampleChain⟩

theorem not_safeOffer_sample :
    ¬SafeOffer sampleSession ⟨[.tracked sampleEntry], [sampleSpend]⟩ := by
  intro h
  exact h.unspent (.tracked sampleEntry) (List.mem_cons_self ..) sampleFunding
    outpointOf_sampleEntry sampleSpend (List.mem_cons_self ..) (List.mem_cons_self ..)

/-- A wait that times out leaves the inputs of its transaction on offer, and so does a first refresh
that comes after a broadcast. -/
theorem session_reoffers :
    (¬∀ o ∈ (sessionRun sampleSession {} sampleTimeout).offers, SafeOffer sampleSession o) ∧
      ¬∀ o ∈ (sessionRun sampleSession {} sampleOwnOutputs).offers, SafeOffer sampleSession o := by
  constructor
  · intro h
    refine not_safeOffer_sample (h _ ?_)
    have hrun : (sessionRun sampleSession {} sampleTimeout).offers =
        [⟨[.tracked sampleEntry], []⟩, ⟨[.tracked sampleEntry], [sampleSpend]⟩] := rfl
    rw [hrun]
    exact List.mem_cons_of_mem _ (List.mem_cons_self ..)
  · intro h
    refine not_safeOffer_sample (h _ ?_)
    have hrun : (sessionRun sampleSession {} sampleOwnOutputs).offers =
        [⟨[.tracked sampleEntry], [sampleSpend]⟩] := rfl
    rw [hrun]
    exact List.mem_cons_self ..

end XChainSdk
