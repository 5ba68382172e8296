import XChainSdk.Carrier.ReconcileEncoded
import XChainSdk.Cosigner.Conservation

/-!
# What a reconciled transaction does with the value

* `spends`, `changeScripts`, `requestedScripts`, `phaseLegs` : the buckets of a transaction's value.
* `readInputs_spec`, `get?_readAuthorizedOutputs` : what the gate reads before the outputs.
* `OutputSpec`, `reconcileOutputs_spec` : what the loop over the outputs establishes.
* `reconcileEncoded_conserves` : every output is in one bucket, and every bucket is bounded.
-/

namespace XChainSdk

open Hash

variable {Network : Type} {L : BitcoinJs Network} {intent : Intent Network} {psbt : EncodedPsbt}

/-! ### Buckets -/

/-- An output as a prevout. -/
def TxOut.prevout (out : TxOut) : Prevout := ⟨out.script, some (out.value.toNat : ℤ)⟩

section Buckets

variable (L : BitcoinJs Network) (intent : Intent Network) (psbt : EncodedPsbt)

/-- The outputs that the inputs spend. -/
def spends : List TxOut := psbt.txInputs.filterMap (verifiedPrevoutOrNull L)

/-- The script of an unsigned input that one key alone controls. -/
def fundingScript (inp : EncodedInput) : Option Bytes :=
  (inputScript L inp).filter fun script => !inputPresigned inp && fundsAlone L intent inp script

/-- The scripts that value returns to. -/
def changeScripts : List Bytes :=
  psbt.txInputs.filterMap (fundingScript L intent) ++ readChangeScripts L intent

/-- The scripts that the caller asked to pay. -/
def requestedScripts : List Bytes := intent.customOutputs.elems.filterMap (requestedScript L intent)

/-- What the caller asked to pay to a script, in some submitted outputs. -/
def requestedIn (outs : List Js) (script : Bytes) : ℤ :=
  ((outs.filter fun out => decide (requestedScript L intent out = some script)).map
    requestedValue).sum

/-- What the caller asked to pay to a script. -/
def requestedTotal (script : Bytes) : ℤ := requestedIn L intent intent.customOutputs.elems script

/-- Neither a data carrier nor change nor requested. -/
def isPhaseLeg (ownScripts : List Bytes) (out : TxOut) : Bool :=
  !isOpReturn L out.script && !ownScripts.contains out.script &&
    !(requestedScripts L intent).contains out.script

/-- The outputs that fund a later phase. -/
def phaseLegs : List TxOut :=
  psbt.txOutputs.filter (isPhaseLeg L intent (changeScripts L intent psbt))

end Buckets

/-! ### Inputs -/

theorem inputValue_eq (inp : EncodedInput) :
    inputValue L inp = (verifiedPrevoutOrNull L inp).map fun out => (out.value.toNat : ℤ) := by
  unfold inputValue
  cases verifiedPrevoutOrNull L inp with
  | none => rfl
  | some out => exact toU64_narrowU64 out.value

/-- What the loop over the inputs has read of a prefix of them. -/
structure InputSpec (L : BitcoinJs Network) (intent : Intent Network) (pre : List EncodedInput)
    (s : EncoderInputs) : Prop where
  shown : ∀ inp ∈ pre, ∃ out, findInputPrevout L inp = .ok (some out)
  funding : s.fundingScripts = pre.filterMap (fundingScript L intent)
  spent : s.spent = (pre.filterMap (verifiedPrevoutOrNull L)).map TxOut.prevout
  totalIn : s.totalIn = totalOf (pre.filterMap (verifiedPrevoutOrNull L))
  feeComputable : s.feeComputable = true

theorem InputSpec.step {pre : List EncodedInput} {s s' : EncoderInputs} {e : EncodedInput × ℕ}
    (h : InputSpec L intent pre s) (hok : readInput L intent s e = .ok s') :
    InputSpec L intent (pre ++ [e.1]) s' := by
  obtain ⟨inp, i⟩ := e
  unfold readInput at hok
  cases hfind : findInputPrevout L inp with
  | error d => simp [hfind] at hok
  | ok prevout =>
    have hverified : verifiedPrevoutOrNull L inp = prevout := by
      rw [verifiedPrevoutOrNull, hfind]
    cases prevout with
    | none => simp [hfind, inputScript, hverified] at hok
    | some out =>
      have hvalue : inputValue L inp = some (out.value.toNat : ℤ) := by
        rw [inputValue_eq, hverified]
        rfl
      have hscript : inputScript L inp = some out.script := by rw [inputScript, hverified]; rfl
      simp only [hfind, hscript, hvalue, Except.ok.injEq] at hok
      subst hok
      constructor
      · intro x hx
        rcases List.mem_append.1 hx with hx | hx
        · exact h.shown x hx
        · rw [List.mem_singleton.1 hx]
          exact ⟨out, hfind⟩
      · have hfunding : fundingScript L intent inp =
            if !inputPresigned inp && fundsAlone L intent inp out.script then some out.script
            else none := by
          rw [fundingScript, hscript, Option.filter_some]
        dsimp only
        rw [List.filterMap_append, ← h.funding]
        by_cases hown : (!inputPresigned inp && fundsAlone L intent inp out.script) = true
        · rw [if_pos hown, List.filterMap_cons_some (hfunding.trans (if_pos hown)),
            List.filterMap_nil]
        · rw [if_neg hown, List.filterMap_cons_none (hfunding.trans (if_neg hown)),
            List.filterMap_nil, List.append_nil]
      · simp [h.spent, List.filterMap_append, hverified, TxOut.prevout]
      · simp [h.totalIn, List.filterMap_append, hverified, totalOf_append, totalOf_singleton]
      · simp [h.feeComputable]

/-- What the gate reads of the inputs. -/
theorem readInputs_spec {inputs : EncoderInputs} (h : readInputs L intent psbt = .ok inputs) :
    InputSpec L intent psbt.txInputs inputs := by
  unfold readInputs at h
  obtain ⟨s, hs, h⟩ := Checks.bind_eq_ok.1 h
  obtain ⟨-, h⟩ := Checks.ite_error_eq_ok.1 h
  obtain ⟨-, h⟩ := Checks.ite_error_eq_ok.1 h
  cases h
  have hspec : InputSpec L intent (psbt.txInputs.zipIdx.map Prod.fst) inputs := by
    refine Checks.foldlM_inv (fun pre s => InputSpec L intent (pre.map Prod.fst) s)
      ⟨by simp, rfl, rfl, rfl, rfl⟩ ?_ hs
    intro pre e s s' hpre hok
    rw [List.map_append]
    exact hpre.step hok
  rwa [List.zipIdx_map_fst] at hspec

/-- The legs of an earlier phase are among the prevouts, each with an input of its own. -/
theorem checkRequiredSpends_spec {spent : List Prevout}
    (h : checkRequiredSpends intent spent = .ok ()) : intent.requiredSpends.Subperm spent := by
  unfold checkRequiredSpends at h
  obtain ⟨pool, hpool, -⟩ := Checks.bind_eq_ok.1 h
  have hperm : spent.Perm (intent.requiredSpends ++ pool.untaken) := by
    refine Checks.foldlM_inv (fun pre (pool : Pool Prevout) => spent.Perm (pre ++ pool.untaken))
      (by simp) ?_ hpool
    intro pre leg pool pool' hpre hok
    unfold checkRequiredSpend at hok
    cases ht : takeMatch pool leg.script leg.value with
    | none => simp [ht] at hok
    | some taken =>
      simp only [ht, Except.ok.injEq] at hok
      rw [← hok]
      exact Pool.perm_take? hpre ht
  exact Pool.subperm_of_perm hperm

/-! ### Submitted destinations -/

theorem requestedIn_append (pre : List Js) (out : Js) (script : Bytes) :
    requestedIn L intent (pre ++ [out]) script = requestedIn L intent pre script +
      if requestedScript L intent out = some script then requestedValue out else 0 := by
  unfold requestedIn
  rw [List.filter_append, List.map_append, List.sum_append]
  by_cases h : requestedScript L intent out = some script <;> simp [h]

/-- The entry of a script: what was asked for in total, and nothing spent. -/
theorem get?_readAuthorizedOutputs (script : Bytes) :
    (readAuthorizedOutputs L intent).get? script =
      if script ∈ requestedScripts L intent then some ⟨requestedTotal L intent script, 0⟩
      else none := by
  unfold readAuthorizedOutputs requestedScripts requestedTotal
  refine Loop.foldl_inv (fun pre (d : Dict Bytes Authorized) => d.get? script =
    if script ∈ pre.filterMap (requestedScript L intent) then
      some ⟨requestedIn L intent pre script, 0⟩ else none) (by simp) ?_ _
  intro pre out d hd
  rw [requestedIn_append, List.filterMap_append]
  unfold authorizeOutput
  cases hreq : requestedScript L intent out with
  | none => simp [hreq, hd]
  | some asked =>
    by_cases hs : script = asked
    · subst hs
      by_cases hmem : script ∈ pre.filterMap (requestedScript L intent)
      · rw [if_pos hmem] at hd
        simp [hd, hreq, Dict.get?_set]
      · rw [if_neg hmem] at hd
        -- nothing was asked for this script before
        have hzero : requestedIn L intent pre script = 0 := by
          have hnil : (pre.filter fun out => decide (requestedScript L intent out = some script)) =
              [] := by
            refine List.filter_eq_nil_iff.2 fun o ho hdec => hmem ?_
            exact List.mem_filterMap.2 ⟨o, ho, of_decide_eq_true hdec⟩
          rw [requestedIn, hnil]
          rfl
        simp [hd, hreq, Dict.get?_set, hzero]
    · have hset : ∀ v, (d.set asked v).get? script = d.get? script := by
        intro v
        rw [Dict.get?_set, if_neg hs]
      have hne : asked ≠ script := fun h => hs h.symm
      cases hget : d.get? asked with
      | none => simp [hget, hset, hd, hreq, hne, hs]
      | some entry => simp [hget, hset, hd, hreq, hne, hs]

theorem requestedTotal_nonneg (script : Bytes) : 0 ≤ requestedTotal L intent script := by
  refine List.sum_nonneg fun v hv => ?_
  obtain ⟨out, -, rfl⟩ := List.mem_map.1 hv
  unfold requestedValue
  cases exactU64 (out.field "value") with
  | none => exact le_rfl
  | some n => exact Int.natCast_nonneg n

/-! ### Outputs -/

theorem paidTo_append (script : Bytes) (pre : List TxOut) (out : TxOut) :
    paidTo script (pre ++ [out]) =
      paidTo script pre + if out.script = script then (out.value.toNat : ℤ) else 0 := by
  by_cases h : out.script = script
  · rw [paidTo_append_of_eq h, if_pos h]
  · rw [paidTo_append_of_ne h, if_neg h, add_zero]

/-- What the loop over the outputs has established for a prefix of them. -/
structure OutputSpec (L : BitcoinJs Network) (intent : Intent Network) (ownScripts : List Bytes)
    (pre : List TxOut) (s : EncoderOutputs) : Prop where
  totalOut : s.totalOut = totalOf pre
  entries : ∀ script, s.authorized.get? script =
    if script ∈ requestedScripts L intent then
      some ⟨requestedTotal L intent script, if script ∈ ownScripts then 0 else paidTo script pre⟩
    else none
  capped : ∀ script ∈ requestedScripts L intent, script ∉ ownScripts →
    paidTo script pre ≤ requestedTotal L intent script
  carriers : ∀ out ∈ pre, isOpReturn L out.script = true → out.value = 0
  shaped : ∀ out ∈ pre, isPhaseLeg L intent ownScripts out = true →
    matchesPhaseShape L out.script intent.phaseShapes = true
  legs : s.phaseFunding = (pre.filter (isPhaseLeg L intent ownScripts)).map TxOut.prevout
  legsTotal : s.phaseFundingTotal = totalOf (pre.filter (isPhaseLeg L intent ownScripts))
  companion : match intent.phaseSpends with
    | none => s.phaseSpends = none
    | some spends => ∃ pool, s.phaseSpends = some pool ∧
        spends.Perm (s.phaseFunding ++ pool.untaken)

variable {ownScripts : List Bytes} {pre : List TxOut} {s s' : EncoderOutputs} {out : TxOut}

theorem OutputSpec.init : OutputSpec L intent ownScripts []
    { authorized := readAuthorizedOutputs L intent
      phaseSpends := intent.phaseSpends.map Pool.ofList } where
  totalOut := rfl
  entries := by
    intro script
    rw [get?_readAuthorizedOutputs]
    simp [paidTo]
  capped := fun script _ _ => requestedTotal_nonneg script
  carriers := by simp
  shaped := by simp
  legs := rfl
  legsTotal := rfl
  companion := by
    cases intent.phaseSpends with
    | none => rfl
    | some spends => exact ⟨_, rfl, by simp⟩

/-- Data carriers and change: nothing is paid that is bounded. -/
theorem OutputSpec.skip (h : OutputSpec L intent ownScripts pre s)
    (hcarrier : isOpReturn L out.script = true → out.value = 0)
    (hzero : out.script ∉ ownScripts → out.value = 0)
    (hleg : isPhaseLeg L intent ownScripts out = false) :
    OutputSpec L intent ownScripts (pre ++ [out])
      { s with totalOut := s.totalOut + out.value.toNat } := by
  have hpaid : ∀ script ∉ ownScripts, paidTo script (pre ++ [out]) = paidTo script pre := by
    intro script hscript
    rw [paidTo_append]
    split_ifs with heq
    · rw [hzero (heq ▸ hscript)]
      simp
    · exact add_zero _
  refine ⟨?_, fun script => ?_, fun script hreq hown => ?_, ?_, ?_, ?_, ?_, h.companion⟩
  · simp [h.totalOut, totalOf_append, totalOf_singleton]
  · rw [h.entries]
    by_cases hown : script ∈ ownScripts
    · simp [hown]
    · rw [hpaid script hown]
  · rw [hpaid script hown]
    exact h.capped script hreq hown
  · exact Loop.forall_mem_snoc h.carriers hcarrier
  · exact Loop.forall_mem_snoc h.shaped fun hl => absurd hl (by simp [hleg])
  · simp [h.legs, hleg]
  · simp [h.legsTotal, hleg]

/-- A submitted destination is paid within its cap. -/
theorem OutputSpec.pay (h : OutputSpec L intent ownScripts pre s) {i : ℕ} {entry : Authorized}
    (hcarrier : ¬ isOpReturn L out.script = true) (hown : out.script ∉ ownScripts)
    (hget : s.authorized.get? out.script = some entry)
    (hok : payAuthorized { s with totalOut := s.totalOut + out.value.toNat } i out.script
      out.value.toNat entry = .ok s') :
    OutputSpec L intent ownScripts (pre ++ [out]) s' := by
  have hentry := h.entries out.script
  rw [hget] at hentry
  have hreq : out.script ∈ requestedScripts L intent := by
    by_contra hno
    simp [hno] at hentry
  rw [if_pos hreq, if_neg hown, Option.some.injEq] at hentry
  have hleg : isPhaseLeg L intent ownScripts out = false := by simp [isPhaseLeg, hreq]
  unfold payAuthorized at hok
  obtain ⟨hcap, hs'⟩ := Checks.ite_error_eq_ok.1 hok
  rw [Except.ok.injEq] at hs'
  subst hs'
  subst hentry
  refine ⟨?_, fun script => ?_, fun script hmem hnot => ?_, ?_, ?_, ?_, ?_, h.companion⟩
  · simp [h.totalOut, totalOf_append, totalOf_singleton]
  · rw [Dict.get?_set, h.entries, paidTo_append]
    by_cases hs : script = out.script
    · subst hs
      simp [hreq, hown]
    · have hne : ¬ out.script = script := fun he => hs he.symm
      simp [hs, hne]
  · rw [paidTo_append]
    split_ifs with hs
    · subst hs
      exact not_lt.1 hcap
    · rw [add_zero]
      exact h.capped script hmem hnot
  · exact Loop.forall_mem_snoc h.carriers fun hc => absurd hc hcarrier
  · exact Loop.forall_mem_snoc h.shaped fun hl => absurd hl (by simp [hleg])
  · simp [h.legs, hleg]
  · simp [h.legsTotal, hleg]

theorem fundPhase_ok {script : Bytes} {value : ℤ} (hok : fundPhase s script value = .ok s') :
    ∃ phaseSpends, s' = { s with
        phaseSpends
        phaseFunding := s.phaseFunding ++ [⟨script, some value⟩]
        phaseFundingTotal := s.phaseFundingTotal + value } ∧
      (s.phaseSpends = none ∧ phaseSpends = none ∨ ∃ pool pool', s.phaseSpends = some pool ∧
        phaseSpends = some pool' ∧ takeMatch pool script (some value) = some pool') := by
  unfold fundPhase at hok
  cases hspends : s.phaseSpends with
  | none =>
    simp only [hspends, Except.ok.injEq] at hok
    exact ⟨none, hok.symm, .inl ⟨rfl, rfl⟩⟩
  | some pool =>
    cases ht : takeMatch pool script (some value) with
    | none => simp [hspends, ht] at hok
    | some pool' =>
      simp only [hspends, ht, Except.ok.injEq] at hok
      exact ⟨some pool', hok.symm, .inr ⟨pool, pool', rfl, rfl, ht⟩⟩

/-- A funding leg is shaped, and the companion transaction spends it. -/
theorem OutputSpec.fund (h : OutputSpec L intent ownScripts pre s)
    (hleg : isPhaseLeg L intent ownScripts out = true)
    (hshape : matchesPhaseShape L out.script intent.phaseShapes = true)
    (hok : fundPhase { s with totalOut := s.totalOut + out.value.toNat } out.script
      out.value.toNat = .ok s') :
    OutputSpec L intent ownScripts (pre ++ [out]) s' := by
  obtain ⟨phaseSpends, rfl, hspends⟩ := fundPhase_ok hok
  obtain ⟨⟨hcarrier, hown⟩, hreq⟩ :
      (isOpReturn L out.script = false ∧ out.script ∉ ownScripts) ∧
        out.script ∉ requestedScripts L intent := by
    simpa [isPhaseLeg] using hleg
  have hpaid : ∀ script ∈ requestedScripts L intent,
      paidTo script (pre ++ [out]) = paidTo script pre := by
    intro script hscript
    exact paidTo_append_of_ne (fun he => hreq (he ▸ hscript)) pre
  refine ⟨?_, fun script => ?_, fun script hmem hnot => ?_, ?_, ?_, ?_, ?_, ?_⟩
  · simp [h.totalOut, totalOf_append, totalOf_singleton]
  · rw [h.entries]
    by_cases hmem : script ∈ requestedScripts L intent
    · rw [hpaid script hmem]
    · simp [hmem]
  · rw [hpaid script hmem]
    exact h.capped script hmem hnot
  · exact Loop.forall_mem_snoc h.carriers fun hc => absurd hc (by simp [hcarrier])
  · exact Loop.forall_mem_snoc h.shaped fun _ => hshape
  · simp [h.legs, hleg, TxOut.prevout]
  · simp [h.legsTotal, hleg, totalOf_append, totalOf_singleton]
  · have hcomp := h.companion
    cases hi : intent.phaseSpends with
    | none =>
      rw [hi] at hcomp
      rcases hspends with ⟨-, hnone⟩ | ⟨pool, pool', hsome, -⟩
      · exact hnone
      · exact absurd (hsome.symm.trans hcomp) (by simp)
    | some spends =>
      rw [hi] at hcomp
      obtain ⟨pool, hpool, hperm⟩ := hcomp
      rcases hspends with ⟨hnone, -⟩ | ⟨pool₁, pool', hsome, hset, ht⟩
      · exact absurd (hpool.symm.trans hnone) (by simp)
      · rw [hpool, Option.some.injEq] at hsome
        subst hsome
        exact ⟨pool', hset, Pool.perm_take? hperm ht⟩

/-- One output keeps what the loop has established. -/
theorem OutputSpec.step (h : OutputSpec L intent ownScripts pre s) {e : TxOut × ℕ}
    (hok : reconcileOutput L intent ownScripts s e = .ok s') :
    OutputSpec L intent ownScripts (pre ++ [e.1]) s' := by
  obtain ⟨out, i⟩ := e
  unfold reconcileOutput at hok
  simp only [toU64_narrowU64] at hok
  by_cases hcarrier : isOpReturn L out.script = true
  · rw [if_pos hcarrier] at hok
    obtain ⟨hvalue, hs'⟩ := Checks.ite_error_eq_ok.1 hok
    rw [Except.ok.injEq] at hs'
    rw [← hs']
    have hzero : out.value = 0 := by
      rw [← UInt64.toNat_inj]
      have hle : (out.value.toNat : ℤ) ≤ 0 := not_lt.1 hvalue
      simpa using hle
    exact h.skip (fun _ => hzero) (fun _ => hzero) (by simp [isPhaseLeg, hcarrier])
  · rw [if_neg hcarrier] at hok
    by_cases hown : ownScripts.contains out.script = true
    · rw [if_pos hown, Except.ok.injEq] at hok
      rw [← hok]
      have hmem : out.script ∈ ownScripts := by simpa using hown
      exact h.skip (fun hc => absurd hc hcarrier) (fun hno => absurd hmem hno)
        (by simp [isPhaseLeg, hmem])
    · rw [if_neg hown] at hok
      have hmem : out.script ∉ ownScripts := by simpa using hown
      cases hget : s.authorized.get? out.script with
      | some entry =>
        simp only [hget] at hok
        exact h.pay hcarrier hmem hget hok
      | none =>
        simp only [hget] at hok
        have hreq : out.script ∉ requestedScripts L intent := by
          intro hr
          have hentry := h.entries out.script
          rw [hget, if_pos hr] at hentry
          cases hentry
        by_cases hshape : matchesPhaseShape L out.script intent.phaseShapes = true
        · rw [if_pos hshape] at hok
          exact h.fund (by simp [isPhaseLeg, hcarrier, hmem, hreq]) hshape hok
        · rw [if_neg hshape] at hok
          cases hok

/-- What the gate accounts for in the outputs. -/
theorem reconcileOutputs_spec (h : reconcileOutputs L intent psbt ownScripts = .ok s) :
    OutputSpec L intent ownScripts psbt.txOutputs s := by
  have hspec : OutputSpec L intent ownScripts (psbt.txOutputs.zipIdx.map Prod.fst) s := by
    refine Checks.foldlM_inv (fun pre s => OutputSpec L intent ownScripts (pre.map Prod.fst) s)
      .init ?_ h
    intro pre e s s' hpre hok
    rw [List.map_append]
    exact hpre.step hok
  rwa [List.zipIdx_map_fst] at hspec

/-! ### The gate -/

/-- Change: value that returns. -/
def changeOutputs (L : BitcoinJs Network) (intent : Intent Network) (psbt : EncodedPsbt) :
    List TxOut :=
  psbt.txOutputs.filter fun out => (changeScripts L intent psbt).contains out.script

/-- What is paid to the submitted destinations. -/
def requestedOutputs (L : BitcoinJs Network) (intent : Intent Network) (psbt : EncodedPsbt) :
    List TxOut :=
  psbt.txOutputs.filter fun out => !(changeScripts L intent psbt).contains out.script &&
    (requestedScripts L intent).contains out.script

/-- A cap that is given can be read, and bounds the amount. -/
def WithinCap (cap : Js) (amount : ℤ) : Prop :=
  cap.isNullish = false → ∃ n : ℕ, exactU64 cap = some n ∧ amount ≤ n

/-- What a reconciled transaction does with the value of its inputs. -/
structure Reconciled (L : BitcoinJs Network) (intent : Intent Network) (psbt : EncodedPsbt)
    (r : Reconciliation) : Prop where
  shown : ∀ inp ∈ psbt.txInputs, ∃ out, findInputPrevout L inp = .ok (some out)
  destinations : ∀ out ∈ psbt.txOutputs, out.value ≠ 0 →
    out.script ∈ changeScripts L intent psbt ∨ out.script ∈ requestedScripts L intent ∨
      matchesPhaseShape L out.script intent.phaseShapes = true
  balance : totalOf psbt.txOutputs = totalOf (changeOutputs L intent psbt) +
    totalOf (requestedOutputs L intent psbt) + totalOf (phaseLegs L intent psbt)
  requested : ∀ script ∈ requestedScripts L intent, script ∉ changeScripts L intent psbt →
    paidTo script psbt.txOutputs ≤ requestedTotal L intent script
  legs : r.phaseFunding = (phaseLegs L intent psbt).map TxOut.prevout
  companion : ∀ spends, intent.phaseSpends = some spends → r.phaseFunding.Subperm spends
  phaseCap : WithinCap intent.maxPhaseFundingSats (totalOf (phaseLegs L intent psbt))
  required : intent.requiredSpends.Subperm ((spends L psbt).map TxOut.prevout)
  fee : r.fee = some (totalOf (spends L psbt) - totalOf psbt.txOutputs)
  fee_nonneg : totalOf psbt.txOutputs ≤ totalOf (spends L psbt)
  feeCap : WithinCap intent.maxFeeSats (totalOf (spends L psbt) - totalOf psbt.txOutputs)

theorem totalOf_filter_add (p : TxOut → Bool) (outs : List TxOut) :
    totalOf outs = totalOf (outs.filter p) + totalOf (outs.filter fun out => !p out) := by
  induction outs with
  | nil => rfl
  | cons out outs ih =>
    simp only [totalOf, List.map_cons, List.sum_cons, List.filter_cons] at *
    cases p out <;> simp <;> omega

theorem totalOf_filter_congr {p q : TxOut → Bool} {outs : List TxOut}
    (h : ∀ out ∈ outs, out.value ≠ 0 → p out = q out) :
    totalOf (outs.filter p) = totalOf (outs.filter q) := by
  induction outs with
  | nil => rfl
  | cons out outs ih =>
    have hrest := ih fun o ho => h o (List.mem_cons_of_mem _ ho)
    by_cases hv : out.value = 0
    · simp only [totalOf, List.filter_cons] at *
      cases p out <;> cases q out <;> simp [hv, hrest]
    · have heq := h out (by simp) hv
      simp only [totalOf, List.filter_cons, heq] at *
      cases q out <;> simp [hrest]

theorem OutputSpec.destinations (h : OutputSpec L intent ownScripts pre s) (hout : out ∈ pre)
    (hvalue : out.value ≠ 0) : out.script ∈ ownScripts ∨ out.script ∈ requestedScripts L intent ∨
      matchesPhaseShape L out.script intent.phaseShapes = true := by
  by_cases hown : out.script ∈ ownScripts
  · exact .inl hown
  · by_cases hreq : out.script ∈ requestedScripts L intent
    · exact .inr (.inl hreq)
    · have hcarrier : isOpReturn L out.script = false := by
        by_contra hc
        exact hvalue (h.carriers out hout (by simpa using hc))
      exact .inr (.inr (h.shaped out hout (by simp [isPhaseLeg, hcarrier, hown, hreq])))

theorem OutputSpec.balance
    (h : OutputSpec L intent (changeScripts L intent psbt) psbt.txOutputs s) :
    totalOf psbt.txOutputs = totalOf (changeOutputs L intent psbt) +
      totalOf (requestedOutputs L intent psbt) + totalOf (phaseLegs L intent psbt) := by
  have hrest : totalOf (phaseLegs L intent psbt) = totalOf (psbt.txOutputs.filter fun out =>
      !(changeScripts L intent psbt).contains out.script &&
        !(requestedScripts L intent).contains out.script) := by
    refine totalOf_filter_congr fun out hout hvalue => ?_
    have hcarrier : isOpReturn L out.script = false := by
      by_contra hc
      exact hvalue (h.carriers out hout (by simpa using hc))
    simp [isPhaseLeg, hcarrier]
  have hchange := totalOf_filter_add
    (fun out => (changeScripts L intent psbt).contains out.script) psbt.txOutputs
  have hreq := totalOf_filter_add (fun out => (requestedScripts L intent).contains out.script)
    (psbt.txOutputs.filter fun out => !(changeScripts L intent psbt).contains out.script)
  rw [List.filter_filter, List.filter_filter] at hreq
  rw [hrest, hchange, hreq, changeOutputs, requestedOutputs, add_assoc]
  simp only [Bool.and_comm]

theorem checkPhaseFundingCap_ok (h : checkPhaseFundingCap intent s = .ok ()) :
    WithinCap intent.maxPhaseFundingSats s.phaseFundingTotal := by
  intro hgiven
  unfold checkPhaseFundingCap at h
  rw [if_neg (by simp [hgiven])] at h
  cases hcap : exactU64 intent.maxPhaseFundingSats with
  | none => simp [hcap] at h
  | some cap =>
    simp only [hcap] at h
    exact ⟨cap, rfl, not_lt.1 (Checks.ite_error_eq_ok.1 h).1⟩

theorem checkFeeCap_ok {fee : ℤ} (h : checkFeeCap intent fee = .ok ()) :
    WithinCap intent.maxFeeSats fee := by
  intro hgiven
  unfold checkFeeCap at h
  rw [if_neg (by simp [hgiven])] at h
  cases hcap : exactU64 intent.maxFeeSats with
  | none => simp [hcap] at h
  | some cap =>
    simp only [hcap] at h
    exact ⟨cap, rfl, not_lt.1 (Checks.ite_error_eq_ok.1 h).1⟩

/-- The fee is what the outputs leave of the inputs. -/
theorem reconcileFee_ok {inputs : EncoderInputs} {r : Reconciliation}
    (hfee : inputs.feeComputable = true) (h : reconcileFee intent inputs s = .ok r) :
    s.totalOut ≤ inputs.totalIn ∧ WithinCap intent.maxFeeSats (inputs.totalIn - s.totalOut) ∧
      r = ⟨some (inputs.totalIn - s.totalOut), some inputs.totalIn, s.totalOut, s.phaseFunding⟩ := by
  unfold reconcileFee at h
  rw [if_neg (by simp [hfee])] at h
  obtain ⟨hneg, h⟩ := Checks.ite_error_eq_ok.1 h
  obtain ⟨-, h⟩ := Checks.ite_error_eq_ok.1 h
  obtain ⟨_, hcap, h⟩ := Checks.bind_eq_ok.1 h
  cases h
  exact ⟨not_lt.1 hneg, checkFeeCap_ok hcap, rfl⟩

/-- **The reconcile gate.**  In a transaction that the gate returns on, every output with value is
change of the caller or of an unsigned input that one key controls, a requested destination within
its total, or a funding leg; the legs, the earlier legs and the fee are bounded as the caller
asked. -/
theorem reconcileEncoded_conserves (L : BitcoinJs Network) (intent : Intent Network)
    (psbtHex : String) (r : Reconciliation) (h : reconcileEncoded L intent psbtHex = .ok r) :
    ∃ psbt, L.encodedFromHex psbtHex = some psbt ∧ Reconciled L intent psbt r := by
  unfold reconcileEncoded at h
  cases hpsbt : L.encodedFromHex psbtHex with
  | none => simp [hpsbt] at h
  | some psbt =>
    simp only [hpsbt] at h
    obtain ⟨inputs, hin, h⟩ := Checks.bind_eq_ok.1 h
    obtain ⟨_, hreq, h⟩ := Checks.bind_eq_ok.1 h
    obtain ⟨outputs, hout, h⟩ := Checks.bind_eq_ok.1 h
    obtain ⟨_, hcap, h⟩ := Checks.bind_eq_ok.1 h
    have hi := readInputs_spec hin
    rw [hi.funding] at hout
    have ho : OutputSpec L intent (changeScripts L intent psbt) psbt.txOutputs outputs :=
      reconcileOutputs_spec hout
    obtain ⟨hneg, hfee, rfl⟩ := reconcileFee_ok hi.feeComputable h
    have hspends : inputs.totalIn = totalOf (spends L psbt) := hi.totalIn
    rw [hspends, ho.totalOut] at hneg hfee
    refine ⟨psbt, rfl, ?_⟩
    exact {
      shown := hi.shown
      destinations := fun out hmem hvalue => ho.destinations hmem hvalue
      balance := ho.balance
      requested := ho.capped
      legs := ho.legs
      companion := by
        intro spends hs
        have hcomp := ho.companion
        rw [hs] at hcomp
        obtain ⟨pool, -, hperm⟩ := hcomp
        exact Pool.subperm_of_perm hperm
      phaseCap := by
        have hlegs := checkPhaseFundingCap_ok hcap
        rwa [ho.legsTotal] at hlegs
      required := by
        have hreq := checkRequiredSpends_spec hreq
        rwa [hi.spent] at hreq
      fee := by rw [hspends, ho.totalOut]
      fee_nonneg := hneg
      feeCap := hfee }

/-! ### A transaction with an output of every kind -/

/-- The witness script of a key hash. -/
def keyScript (b : UInt8) : Bytes := 0x00 :: 0x14 :: List.replicate 20 b

/-- A leg that funds a witness script. -/
def sampleLeg : TxOut := ⟨0x00 :: 0x20 :: List.replicate 32 5, 600⟩

/-- One input; a data carrier, a payment, a leg and change, with a fee of 400. -/
def encodedSample : EncodedPsbt where
  txInputs := [{ hash := List.replicate 32 9, index := 0, witnessUtxo := some ⟨keyScript 7, 10000⟩ }]
  txOutputs := [⟨[0x6a, 0x02, 0x41, 0x42], 0⟩, ⟨keyScript 8, 2000⟩, sampleLeg, ⟨keyScript 7, 7000⟩]

/-- The same as text. -/
def encodedHex : String :=
  "70736274ff0100a90200000001090909090909090909090909090909090909090909090909090909090909090900" ++
  "00000000ffffffff040000000000000000046a024142d00700000000000016001408080808080808080808080808" ++
  "08080808080808580200000000000022002005050505050505050505050505050505050505050505050505050505" ++
  "05050505581b0000000000001600140707070707070707070707070707070707070707000000000001011f102700" ++
  "000000000016001407070707070707070707070707070707070707070000000000"

/-- A library that knows this transaction and the addresses of its keys. -/
def sampleBitcoinJs : BitcoinJs Unit where
  toBitcoin := sampleBitcoin
  encodedFromHex hex := if hex = encodedHex then some encodedSample else none
  transactionFromBuffer _ := none
  isP2pkh script := script.length = 25 && script.take 3 = [0x76, 0xa9, 0x14] &&
    script.drop 23 = [0x88, 0xac]
  isP2wpkh script := script.length = 22 && script.take 2 = [0x00, 0x14]
  isP2shP2wpkh _ _ := false
  toOutputScript address _ :=
    if address = "bc1qqurswpc8qurswpc8qurswpc8qurswpc89fe3yv" then some (keyScript 7)
    else if address = "bc1qpqyqszqgpqyqszqgpqyqszqgpqyqszqg23t9q4" then some (keyScript 8)
    else none
  p2pkh _ _ := none
  p2wpkh _ _ := none
  p2shP2wpkh _ _ := none
  segwitless _ := false

/-- A submitted output. -/
def customOutput (address : String) (value : ℤ) : Js :=
  .obj [("address", .str address), ("value", .bigint value)]

/-- A payment of 2000 with a leg that the companion transaction spends, under caps. -/
def sampleIntent : Intent Unit where
  network := ()
  customOutputs := .arr [customOutput "bc1qpqyqszqgpqyqszqgpqyqszqgpqyqszqg23t9q4" 2000]
  maxFeeSats := .str "400"
  phaseShapes := [.p2sh, .p2wsh]
  phaseSpends := some [sampleLeg.prevout]
  requiredSpends := [⟨keyScript 7, some 10000⟩]
  maxPhaseFundingSats := .num (.fin 600)

theorem reconcileEncoded_conserves_sample : ∃ (r : Reconciliation) (psbt : EncodedPsbt),
    sampleBitcoinJs.encodedFromHex encodedHex = some psbt ∧
      Reconciled sampleBitcoinJs sampleIntent psbt r := by
  have hok : (reconcileEncoded sampleBitcoinJs sampleIntent encodedHex).isOk = true := by
    decide +kernel
  cases h : reconcileEncoded sampleBitcoinJs sampleIntent encodedHex with
  | error d => rw [h] at hok; cases hok
  | ok r => exact ⟨r, reconcileEncoded_conserves sampleBitcoinJs sampleIntent encodedHex r h⟩

/-- The caller also asks to pay 1000 to the key of the transaction's own input. -/
def overpaidIntent : Intent Unit :=
  { sampleIntent with
    customOutputs := .arr [customOutput "bc1qpqyqszqgpqyqszqgpqyqszqgpqyqszqg23t9q4" 2000,
      customOutput "bc1qqurswpc8qurswpc8qurswpc8qurswpc89fe3yv" 1000] }

/-- A recipient whose script an unsigned input spends is paid 7000 where 1000 were asked for. -/
theorem recipient_overpaid :
    ¬ ∀ (L : BitcoinJs Unit) (intent : Intent Unit) (psbtHex : String) (r : Reconciliation)
      (psbt : EncodedPsbt), L.encodedFromHex psbtHex = some psbt →
      reconcileEncoded L intent psbtHex = .ok r → ∀ script ∈ requestedScripts L intent,
        paidTo script psbt.txOutputs ≤ requestedTotal L intent script := by
  intro hall
  have hok : (reconcileEncoded sampleBitcoinJs overpaidIntent encodedHex).isOk = true := by
    decide +kernel
  cases h : reconcileEncoded sampleBitcoinJs overpaidIntent encodedHex with
  | error d => rw [h] at hok; cases hok
  | ok r =>
    have hle := hall sampleBitcoinJs overpaidIntent encodedHex r encodedSample
      (by simp [sampleBitcoinJs]) h
      (keyScript 7) (by decide)
    revert hle
    decide

end XChainSdk
