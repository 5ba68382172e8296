import XChainSdk.Cosigner.Respelling
import XChainSdk.Cosigner.SignRequest
import Mathlib.Algebra.BigOperators.Fin

/-!
# What an approved transaction can cost the account

The gates bound where the value of the inputs goes: change returns to the account, the operator's
entries are capped, the commit output and the fee are bounded by the fee cap, and data carriers
hold nothing.

* `totalOf`, `paidTo`, `prevouts` : amounts of outputs, and the outputs that are spent.
* `ScanSpec`, `checkOutputs_spec` : what the loop over the outputs establishes.
* `checkFee_spec` : the fee is the difference of the totals, and bounded.
* `process_conserves` : the net loss of an approved request.
-/

namespace XChainSdk

open Hash

variable {B : Bitcoin} {self : CoSigner B} {env : Option Envelope} {psbt : Psbt}

/-! ### Amounts -/

/-- The sum of some outputs. -/
def totalOf (outs : List TxOut) : ℤ := (outs.map fun out => (out.value.toNat : ℤ)).sum

/-- What some outputs pay to a script. -/
def paidTo (script : Bytes) (outs : List TxOut) : ℤ :=
  totalOf (outs.filter fun out => decide (out.script = script))

/-- The outputs that the inputs spend, as the transaction shows them. -/
def prevouts (psbt : Psbt) : List TxOut := psbt.txInputs.filterMap PsbtInput.witnessUtxo

/-- What the operator's list authorizes for one transaction. -/
def allowance (self : CoSigner B) : ℤ := (self.allowedOutputs.map fun a => (a.maxValue : ℤ)).sum

/-- What a commit output may hold. -/
def commitAllowance (self : CoSigner B) (env : Option Envelope) : ℤ :=
  if hasRole env .commit then self.maxFeeSats.getD 0 else 0

@[simp] theorem totalOf_nil : totalOf [] = 0 := rfl

theorem totalOf_append (a b : List TxOut) : totalOf (a ++ b) = totalOf a + totalOf b := by
  simp [totalOf]

theorem totalOf_singleton (out : TxOut) : totalOf [out] = out.value.toNat := by simp [totalOf]

theorem totalOf_filter_le (p : TxOut → Bool) (outs : List TxOut) :
    totalOf (outs.filter p) ≤ totalOf outs := by
  induction outs with
  | nil => rfl
  | cons out outs ih =>
    simp only [totalOf, List.map_cons, List.sum_cons, List.filter_cons] at *
    split_ifs
    · simp only [List.map_cons, List.sum_cons]
      omega
    · omega

theorem paidTo_append_of_ne {script : Bytes} {out : TxOut} (h : out.script ≠ script)
    (outs : List TxOut) : paidTo script (outs ++ [out]) = paidTo script outs := by
  simp [paidTo, List.filter_append, h]

theorem paidTo_append_of_eq {script : Bytes} {out : TxOut} (h : out.script = script)
    (outs : List TxOut) : paidTo script (outs ++ [out]) = paidTo script outs + out.value.toNat := by
  simp [paidTo, List.filter_append, h, totalOf_append, totalOf_singleton]

theorem toU64_narrowU64 (v : UInt64) : toU64 (narrowU64 v) = some (v.toNat : ℤ) := by
  unfold narrowU64
  split_ifs
  · simp [toU64]
  · rfl

/-! ### Outputs -/

/-- What the entries of the list have paid so far. -/
def OutputScan.spentTotal (self : CoSigner B) (s : OutputScan) : ℤ :=
  ∑ i : Fin self.allowedOutputs.length, s.spentAt i

theorem spentAt_set (s : OutputScan) (i j : ℕ) (v : ℤ) :
    OutputScan.spentAt { s with spent := s.spent.set i v } j =
      if j = i then v else s.spentAt j := by
  simp only [OutputScan.spentAt, Dict.get?_set]
  split_ifs <;> rfl

theorem spentTotal_set (s : OutputScan) (i : Fin self.allowedOutputs.length) (v : ℤ) :
    OutputScan.spentTotal self { s with spent := s.spent.set i (s.spentAt i + v) } =
      s.spentTotal self + v := by
  have hterm : ∀ j : Fin self.allowedOutputs.length,
      OutputScan.spentAt { s with spent := s.spent.set i (s.spentAt i + v) } j =
        s.spentAt j + if j = i then v else 0 := by
    intro j
    rw [spentAt_set]
    by_cases hj : j = i
    · simp [hj]
    · have hne : (j : ℕ) ≠ i := fun h => hj (Fin.ext h)
      simp [hj, hne]
  simp only [OutputScan.spentTotal, hterm, Finset.sum_add_distrib, Finset.sum_ite_eq',
    Finset.mem_univ, if_true]

/-- What the loop over the outputs has established for a prefix of them. -/
structure ScanSpec (cs : CoSigner B) (env : Option Envelope) (account : Bytes)
    (pre : List TxOut) (s : OutputScan) : Prop where
  carriers : ∀ out ∈ pre, isDataCarrier B out.script = true → out.value = 0 ∧ env = none
  balance : ∃ c : ℤ, totalOf pre = paidTo account pre + c + s.spentTotal cs ∧
    c ≤ commitAllowance cs env ∧ (s.commitOutputsSeen = 0 → c = 0)
  capped : ∀ i : Fin cs.allowedOutputs.length, s.spentAt i ≤ cs.allowedOutputs[i].maxValue

variable {account : Bytes} {pre : List TxOut} {s s' : OutputScan} {out : TxOut}

theorem commitAllowance_nonneg : 0 ≤ commitAllowance self env := by
  unfold commitAllowance
  split_ifs <;> positivity

theorem ScanSpec.init : ScanSpec self env account [] ⟨Dict.empty, 0⟩ where
  carriers := by simp
  balance := ⟨0, by simp [paidTo, OutputScan.spentTotal, OutputScan.spentAt],
    commitAllowance_nonneg, fun _ => rfl⟩
  capped := by simp [OutputScan.spentAt]

theorem inspectDataCarrier_ok (h : inspectDataCarrier out env = .ok ()) :
    out.value = 0 ∧ env = none := by
  unfold inspectDataCarrier at h
  obtain ⟨henv, h⟩ := Checks.ite_error_eq_ok.1 h
  obtain ⟨hvalue, -⟩ := Checks.ite_error_eq_ok.1 h
  refine ⟨?_, by simpa using henv⟩
  by_contra hne
  exact hvalue (narrowU64_toNumber_pos hne)

theorem mem_carriers (h : ScanSpec self env account pre s)
    (hout : isDataCarrier B out.script = true → out.value = 0 ∧ env = none) :
    ∀ o ∈ pre ++ [out], isDataCarrier B o.script = true → o.value = 0 ∧ env = none := by
  intro o ho
  rcases List.mem_append.1 ho with ho | ho
  · exact h.carriers o ho
  · rw [List.mem_singleton.1 ho]
    exact hout

/-- An output without value, or one that returns to the account. -/
theorem ScanSpec.keep (h : ScanSpec self env account pre s)
    (hout : isDataCarrier B out.script = true → out.value = 0 ∧ env = none)
    (hzero : out.script ≠ account → out.value = 0) :
    ScanSpec self env account (pre ++ [out]) s where
  carriers := mem_carriers h hout
  balance := by
    obtain ⟨c, hbal, hc, hseen⟩ := h.balance
    refine ⟨c, ?_, hc, hseen⟩
    rw [totalOf_append, totalOf_singleton, hbal]
    by_cases hs : out.script = account
    · rw [paidTo_append_of_eq hs]
      ring
    · rw [paidTo_append_of_ne hs, hzero hs]
      simp
  capped := h.capped

theorem ScanSpec.commit (h : ScanSpec self env account pre s)
    (hcarrier : ¬ isDataCarrier B out.script = true) (hne : out.script ≠ account)
    (hrole : hasRole env .commit = true) (hok : checkEnvelopeCommitOutput self out s = .ok s') :
    ScanSpec self env account (pre ++ [out]) s' := by
  unfold checkEnvelopeCommitOutput at hok
  obtain ⟨hseen0, hok⟩ := Checks.ite_error_eq_ok.1 hok
  obtain ⟨c, hbal, -, hseen⟩ := h.balance
  have hc0 : c = 0 := hseen (by omega)
  rw [toU64_narrowU64] at hok
  cases hfee : self.maxFeeSats with
  | none => simp [hfee, deny] at hok
  | some m =>
    simp only [hfee] at hok
    obtain ⟨hcap, hs'⟩ := Checks.ite_error_eq_ok.1 hok
    cases hs'
    refine ⟨mem_carriers h fun hd => absurd hd hcarrier, ⟨out.value.toNat, ?_, ?_, ?_⟩, h.capped⟩
    · rw [totalOf_append, totalOf_singleton, hbal, hc0, paidTo_append_of_ne hne]
      have hsame : OutputScan.spentTotal self { s with commitOutputsSeen := s.commitOutputsSeen + 1 }
          = s.spentTotal self := rfl
      rw [hsame]
      ring
    · simp only [commitAllowance, hrole, if_true, hfee, Option.getD_some]
      omega
    · intro h0
      simp at h0

theorem matchAllowed_eq_some {script : Bytes} {entry : AllowedOutput B} {i : ℕ}
    (h : matchAllowed self script = some (entry, i)) :
    ∃ hi : i < self.allowedOutputs.length, self.allowedOutputs[i] = entry := by
  have hmem := List.mem_of_find?_eq_some h
  obtain ⟨hi, hentry⟩ := List.mem_zipIdx' hmem
  exact ⟨hi, hentry.symm⟩

theorem ScanSpec.allowed (h : ScanSpec self env account pre s)
    (hcarrier : ¬ isDataCarrier B out.script = true) (hne : out.script ≠ account)
    {entry : AllowedOutput B} {i : ℕ} (hmatch : matchAllowed self out.script = some (entry, i))
    (hok : checkAllowedOutput out i entry.maxValue s = .ok s') :
    ScanSpec self env account (pre ++ [out]) s' := by
  obtain ⟨hi, hentry⟩ := matchAllowed_eq_some hmatch
  unfold checkAllowedOutput at hok
  rw [toU64_narrowU64] at hok
  obtain ⟨hcap, hs'⟩ := Checks.ite_error_eq_ok.1 hok
  cases hs'
  refine ⟨mem_carriers h fun hd => absurd hd hcarrier, ?_, fun j => ?_⟩
  · obtain ⟨c, hbal, hc, hseen⟩ := h.balance
    refine ⟨c, ?_, hc, hseen⟩
    rw [totalOf_append, totalOf_singleton, hbal, paidTo_append_of_ne hne,
      spentTotal_set s ⟨i, hi⟩]
    ring
  · rw [spentAt_set]
    split_ifs with hj
    · have hget : self.allowedOutputs[j].maxValue = entry.maxValue := by
        rw [← hentry]
        simp [hj]
      rw [hget]
      exact not_lt.1 hcap
    · exact h.capped j

/-- One output keeps what the loop has established. -/
theorem ScanSpec.step (h : ScanSpec self env account pre s)
    (hok : checkOutput self env account s out = .ok s') :
    ScanSpec self env account (pre ++ [out]) s' := by
  unfold checkOutput at hok
  by_cases hcarrier : isDataCarrier B out.script = true
  · rw [if_pos hcarrier] at hok
    obtain ⟨_, hinspect, hs'⟩ := Checks.bind_eq_ok.1 hok
    cases hs'
    obtain ⟨hvalue, henv⟩ := inspectDataCarrier_ok hinspect
    exact h.keep (fun _ => ⟨hvalue, henv⟩) fun _ => hvalue
  · rw [if_neg hcarrier] at hok
    by_cases haccount : out.script = account
    · rw [if_pos haccount] at hok
      cases hok
      exact h.keep (fun hd => absurd hd hcarrier) fun hne => absurd haccount hne
    · rw [if_neg haccount] at hok
      by_cases hcommit : isCommitOutput env out.script = true
      · rw [if_pos hcommit] at hok
        refine h.commit hcarrier haccount ?_ hok
        cases env with
        | none => simp [isCommitOutput] at hcommit
        | some env =>
          simp only [isCommitOutput, Bool.and_eq_true] at hcommit
          exact hcommit.1
      · rw [if_neg hcommit] at hok
        cases hmatch : matchAllowed self out.script with
        | none => simp [hmatch, deny] at hok
        | some e =>
          rw [hmatch] at hok
          exact h.allowed hcarrier haccount hmatch hok

theorem spentTotal_le (h : ScanSpec self env account pre s) : s.spentTotal self ≤ allowance self := by
  have hle : s.spentTotal self ≤
      ∑ i : Fin self.allowedOutputs.length, (self.allowedOutputs[i].maxValue : ℤ) :=
    Finset.sum_le_sum fun i _ => h.capped i
  refine hle.trans (le_of_eq ?_)
  exact Fin.sum_univ_fun_getElem self.allowedOutputs fun a => (a.maxValue : ℤ)

/-- **The output gate**: what leaves the account is authorized, and data carriers hold nothing. -/
theorem checkOutputs_spec {idx : ℕ} (h : checkOutputs self psbt idx env = .ok s) :
    ∃ script, prevoutScript psbt idx = some script ∧
      totalOf psbt.txOutputs ≤
        paidTo (if env.isSome then self.accountScript else script) psbt.txOutputs +
          commitAllowance self env + allowance self ∧
      ∀ out ∈ psbt.txOutputs, isDataCarrier B out.script = true → out.value = 0 ∧ env = none := by
  unfold checkOutputs at h
  cases hscript : prevoutScript psbt idx with
  | none => simp [hscript, deny] at h
  | some script =>
    simp only [hscript] at h
    have hspec : ScanSpec self env (if env.isSome then self.accountScript else script)
        psbt.txOutputs s :=
      Checks.foldlM_inv (fun pre s => ScanSpec self env _ pre s) ScanSpec.init
        (fun pre out s s' hpre hok => hpre.step hok) h
    obtain ⟨c, hbal, hc, -⟩ := hspec.balance
    have hspent := spentTotal_le hspec
    exact ⟨script, rfl, by omega, hspec.carriers⟩

/-! ### Fee -/

theorem foldlM_addInputValue {inputs : List PsbtInput} {total : ℤ}
    (h : inputs.foldlM addInputValue 0 = .ok total) :
    total = totalOf (inputs.filterMap PsbtInput.witnessUtxo) := by
  refine Checks.foldlM_inv
    (fun pre t => t = totalOf (pre.filterMap PsbtInput.witnessUtxo)) rfl ?_ h
  intro pre inp t t' ht hstep
  unfold addInputValue at hstep
  cases hutxo : inp.witnessUtxo with
  | none => simp [hutxo, deny] at hstep
  | some utxo =>
    simp only [hutxo, Option.bind_some, toU64_narrowU64, Except.ok.injEq] at hstep
    rw [← hstep, ht, List.filterMap_append, totalOf_append]
    simp [hutxo, totalOf_singleton]

theorem foldlM_addOutputValue {outs : List TxOut} {total : ℤ}
    (h : outs.foldlM addOutputValue 0 = .ok total) : total = totalOf outs := by
  refine Checks.foldlM_inv (fun pre t => t = totalOf pre) rfl ?_ h
  intro pre out t t' ht hstep
  unfold addOutputValue at hstep
  simp only [toU64_narrowU64, Except.ok.injEq] at hstep
  rw [← hstep, ht, totalOf_append, totalOf_singleton]

/-- **The fee gate.** -/
theorem checkFee_spec {m : ℕ} (hm : self.maxFeeSats = some m) (h : checkFee self psbt = .ok ()) :
    totalOf (prevouts psbt) - totalOf psbt.txOutputs ≤ m := by
  unfold checkFee at h
  obtain ⟨totalIn, hin, h⟩ := Checks.bind_eq_ok.1 h
  obtain ⟨totalOut, hout, h⟩ := Checks.bind_eq_ok.1 h
  obtain ⟨-, h⟩ := Checks.ite_error_eq_ok.1 h
  obtain ⟨-, h⟩ := Checks.ite_error_eq_ok.1 h
  obtain ⟨hcap, -⟩ := Checks.ite_error_eq_ok.1 h
  rw [foldlM_addInputValue hin, foldlM_addOutputValue hout, hm] at hcap
  simpa [prevouts] using hcap

/-! ### Requests -/

variable {H : Host} {M : MathJs} {D : Decoder} {req : Request} {p : PreparedRequest}
  {approval : Approval}

/-- The script of the outputs that a request spends for the account: on a reveal or a cancel it is
the commit's. -/
def ownScript (self : CoSigner B) (env : Option Envelope) : Bytes :=
  (expectedScript env).getD self.accountScript

theorem checkPrevouts_ok {indices : List ℕ} {expected : Option Bytes}
    (h : checkPrevouts self psbt indices expected = .ok ()) {idx : ℕ} (hidx : idx ∈ indices) :
    prevoutScript psbt idx = some (expected.getD self.accountScript) := by
  have hone := Checks.forM_eq_ok.1 h idx hidx
  unfold checkPrevout at hone
  cases hscript : prevoutScript psbt idx with
  | none => simp [hscript, deny] at hone
  | some script =>
    simp only [hscript] at hone
    split_ifs at hone with he
    · rw [he]
    · cases hone

theorem checkSource_ok {signed : List ℕ} {expected : Option Bytes}
    (h : checkSource self psbt signed expected = .ok ()) : 0 ∈ signed := by
  obtain ⟨hmem, -⟩ := Checks.ite_error_eq_ok.1 h
  simpa using hmem

/-- The gates of an approved request. -/
structure GatesPassed (cs : CoSigner B) (p : PreparedRequest) : Prop where
  spends : ∀ idx ∈ p.seenIdx, prevoutScript p.psbt idx = some (ownScript cs p.env)
  source : 0 ∈ p.seenIdx
  outputs : ∃ s, checkOutputs cs p.psbt (p.seenIdx.headD 0) p.env = .ok s
  fee : checkFee cs p.psbt = .ok ()

theorem checkTransaction_ok {sighashType : Js}
    (h : checkTransaction self p sighashType = .ok ()) : GatesPassed self p := by
  unfold checkTransaction at h
  obtain ⟨_, hprev, h⟩ := Checks.bind_eq_ok.1 h
  obtain ⟨_, hsource, h⟩ := Checks.bind_eq_ok.1 h
  obtain ⟨s, hout, h⟩ := Checks.bind_eq_ok.1 h
  obtain ⟨_, hfee, -⟩ := Checks.bind_eq_ok.1 h
  exact ⟨fun idx hidx => checkPrevouts_ok hprev hidx, checkSource_ok hsource, ⟨s, hout⟩, hfee⟩

theorem authorize_ok {windowUsage : Option WindowUsage} {evaluation : Option Evaluation}
    (h : authorize H M self req p windowUsage = .ok (approval, evaluation)) :
    evaluateRequest H M self p windowUsage = .ok evaluation ∧ GatesPassed self p ∧
      approval.envelopeRole = p.env.map Envelope.role := by
  unfold authorize at h
  obtain ⟨e, heval, h⟩ := Checks.bind_eq_ok.1 h
  obtain ⟨_, htx, h⟩ := Checks.bind_eq_ok.1 h
  obtain ⟨signatures, -, h⟩ := Checks.bind_eq_ok.1 h
  cases h
  exact ⟨heval, checkTransaction_ok htx, rfl⟩

/-- What an approved request spends of the account, and pays outside of it. -/
structure Conserves (cs : CoSigner B) (m : ℕ) (p : PreparedRequest) (role : Option EnvelopeRole) :
    Prop where
  loss : paidTo (ownScript cs p.env) (prevouts p.psbt) - paidTo cs.accountScript p.psbt.txOutputs ≤
    allowance cs + m + (if role = some .commit then m else 0)
  carriers : ∀ out ∈ p.psbt.txOutputs, isDataCarrier B out.script = true →
    out.value = 0 ∧ role = none

theorem GatesPassed.conserves {m : ℕ} (hm : self.maxFeeSats = some m) (h : GatesPassed self p) :
    Conserves self m p (p.env.map Envelope.role) := by
  obtain ⟨s, hout⟩ := h.outputs
  obtain ⟨script, hscript, htotal, hcarriers⟩ := checkOutputs_spec hout
  have hhead : p.seenIdx.headD 0 ∈ p.seenIdx := by
    cases hl : p.seenIdx with
    | nil => simpa [hl] using h.source
    | cons i l => simp
  have hown : script = ownScript self p.env := by
    rw [h.spends _ hhead, Option.some.injEq] at hscript
    exact hscript.symm
  -- change is judged against the account's own script in every role
  have haccount : (if p.env.isSome then self.accountScript else script) = self.accountScript := by
    cases henv : p.env with
    | none => simp [hown, ownScript, expectedScript, henv]
    | some env => rfl
  rw [haccount] at htotal
  have hcommit : commitAllowance self p.env =
      ((if p.env.map Envelope.role = some .commit then m else 0 : ℕ) : ℤ) := by
    cases henv : p.env with
    | none => simp [commitAllowance, hasRole]
    | some env => simp [commitAllowance, hasRole, hm]
  refine ⟨?_, fun out hmem hd => ?_⟩
  · have hfee := checkFee_spec hm h.fee
    have hin : paidTo (ownScript self p.env) (prevouts p.psbt) ≤ totalOf (prevouts p.psbt) :=
      totalOf_filter_le _ _
    rw [← hcommit]
    omega
  · obtain ⟨hvalue, henv⟩ := hcarriers out hmem hd
    exact ⟨hvalue, by rw [henv]; rfl⟩

/-- A request is approved, with a window store or without one. -/
def Approves (H : Host) (M : MathJs) (D : Decoder) (self : CoSigner B) (req : Request)
    (approval : Approval) : Prop :=
  (∃ hours now owned outcome s s',
    process H M D self hours now owned outcome req s = (.ok approval, s')) ∨
  processUnlimited H M D self req = .ok approval

theorem judge_ok {hours now : ℚ} {s s' : Store} {evaluation : Option Evaluation}
    (h : judge H M D self hours now req s = (.ok (approval, p, evaluation), s')) :
    ∃ entries, s.memory = some entries ∧ prepareRequest D self req = .ok p ∧
      authorize H M self req p (some (windowUsageOf M hours now p entries)) =
        .ok (approval, evaluation) ∧ s' = { s with memory := some (pruned hours now entries) } := by
  unfold judge at h
  cases hm : s.memory with
  | none => simp [hm] at h
  | some entries =>
    cases hp : prepareRequest D self req with
    | error d => simp [hm, hp] at h
    | ok q =>
      cases ha : authorize H M self req q (some (windowUsageOf M hours now q entries)) with
      | error d => simp [hm, hp, ha] at h
      | ok r =>
        obtain ⟨a, e⟩ := r
        simp only [hm, hp, ha, Prod.mk.injEq, Except.ok.injEq] at h
        obtain ⟨⟨rfl, rfl, rfl⟩, rfl⟩ := h
        exact ⟨entries, rfl, rfl, ha, rfl⟩

theorem process_ok {hours now : ℚ} {owned : Bool} {outcome : WriteOutcome} {s s' : Store}
    (h : process H M D self hours now owned outcome req s = (.ok approval, s')) :
    ∃ p evaluation s₁, judge H M D self hours now req s = (.ok (approval, p, evaluation), s₁) ∧
      (chargeFor (B := B) p evaluation = none ∧ s' = s₁ ∨
        ∃ charge, chargeFor (B := B) p evaluation = some charge ∧
          recordBudget M now owned outcome charge s₁ = (s', .returned)) := by
  unfold process at h
  split at h
  · cases h
  · next a p evaluation s₁ hj =>
    cases hc : chargeFor (B := B) p evaluation with
    | none =>
      simp only [hc, Prod.mk.injEq, Except.ok.injEq] at h
      exact ⟨p, evaluation, s₁, by rw [hj, h.1], .inl ⟨hc, h.2.symm⟩⟩
    | some charge =>
      simp only [hc] at h
      split at h
      · next s'' hr =>
        simp only [Prod.mk.injEq, Except.ok.injEq] at h
        exact ⟨p, evaluation, s₁, by rw [hj, h.1], .inr ⟨charge, hc, by rw [hr, h.2]⟩⟩
      · cases h

theorem Approves.authorized (h : Approves H M D self req approval) :
    ∃ p windowUsage evaluation, prepareRequest D self req = .ok p ∧
      authorize H M self req p windowUsage = .ok (approval, evaluation) := by
  rcases h with ⟨hours, now, owned, outcome, s, s', h⟩ | h
  · obtain ⟨p, evaluation, s₁, hj, -⟩ := process_ok h
    obtain ⟨entries, -, hp, ha, -⟩ := judge_ok hj
    exact ⟨p, _, evaluation, hp, ha⟩
  · unfold processUnlimited at h
    obtain ⟨p, hp, h⟩ := Checks.bind_eq_ok.1 h
    obtain ⟨⟨a, evaluation⟩, ha, h⟩ := Checks.bind_eq_ok.1 h
    cases h
    exact ⟨p, none, evaluation, hp, ha⟩

/-- **Native-coin conservation.**  An approved request costs the account at most the operator's
authorized outputs and the fee cap, and once more the fee cap on a commit; data carriers hold
nothing, and on an envelope there are none. -/
theorem process_conserves (H : Host) (M : MathJs) (D : Decoder) (self : CoSigner B) (req : Request)
    (approval : Approval) (m : ℕ) (hm : self.maxFeeSats = some m)
    (h : Approves H M D self req approval) :
    ∃ p, prepareRequest D self req = .ok p ∧ Conserves self m p approval.envelopeRole := by
  obtain ⟨p, windowUsage, evaluation, hp, ha⟩ := h.authorized
  obtain ⟨-, hgates, hrole⟩ := authorize_ok ha
  exact ⟨p, hp, by rw [hrole]; exact hgates.conserves hm⟩

/-! ### A plain transfer -/

/-- Opcodes, and pushes of up to 75 bytes. -/
def decompileShort : ℕ → Bytes → Option (List Chunk)
  | _, [] => some []
  | 0, _ => none
  | n + 1, b :: bs =>
    if 1 ≤ b.toNat ∧ b.toNat ≤ 75 then
      if bs.length < b.toNat then none
      else (decompileShort n (bs.drop b.toNat)).map (Chunk.push (bs.take b.toNat) :: ·)
    else (decompileShort n bs).map (Chunk.op b.toNat :: ·)

/-- A library that reads short scripts and signs nothing in particular. -/
def sampleBitcoin : Bitcoin where
  decompile script := decompileShort script.length script
  psbtFromHex _ := none
  getId _ := none
  p2tr _ _ := none
  taggedHash _ _ := []
  hashForWitnessV1 _ _ _ _ := some (List.replicate 32 0)
  deterministicSign _ _ _ := some (List.replicate 66 2, List.replicate 32 1)

/-- The script of a taproot account. -/
def sampleAccount : Bytes := 0x51 :: 0x20 :: List.replicate 32 7

/-- A co-signer of transfers with a fee cap of 500. -/
def sampleCoSigner : CoSigner sampleBitcoin where
  policy := { allowedActions := ["SEND"] }
  allowConfirmable := false
  allowedOutputs := []
  maxFeeSats := some 500
  maxCosignInputs := 32
  accountScript := sampleAccount
  internalXOnly := List.replicate 32 7
  tweaks := []
  recoveryLeaves := none

/-- A data carrier and change, with a fee of 400. -/
def samplePsbt : Psbt where
  version := 2
  locktime := 0
  txInputs := [⟨List.replicate 32 9, 0, 0xffffffff, some ⟨sampleAccount, 10000⟩, []⟩]
  txOutputs := [⟨[0x6a, 0x02, 0x41, 0x42], 0⟩, ⟨sampleAccount, 9600⟩]

/-- The request to sign its only input. -/
def sampleRequest : Request where
  psbt := .psbt samplePsbt
  inputs := .arr [.obj [("index", .num (.fin 0)), ("agentPublicNonce", .str "02")]]

theorem sendTen_texts {α : Type} (tick : String) : ∀ (_ : α) (data : ActionData),
    (Except.ok (sendTen tick) : Except String ActionData) = .ok data →
      DecodedParams data.params := by
  rintro _ data ⟨⟩
  exact (sendTen_decoded tick).params

/-- Every transaction carries ten units of a token. -/
def sampleDecoder : Decoder where
  decodeActionFromPsbt _ := .ok (sendTen "TOK")
  decodeEnvelopeAction _ := .error "ENVELOPE"
  texts := sendTen_texts "TOK"
  envelopeTexts _ _ h := nomatch h

theorem process_conserves_transfer : ∃ (approval : Approval) (p : PreparedRequest),
    prepareRequest sampleDecoder sampleCoSigner sampleRequest = .ok p ∧
      Conserves sampleCoSigner 500 p approval.envelopeRole := by
  have hok : (processUnlimited plainHost plainMath sampleDecoder sampleCoSigner
      sampleRequest).isOk = true := by decide
  cases h : processUnlimited plainHost plainMath sampleDecoder sampleCoSigner sampleRequest with
  | error d => rw [h] at hok; cases hok
  | ok approval =>
    exact ⟨approval, process_conserves plainHost plainMath sampleDecoder sampleCoSigner
      sampleRequest approval 500 rfl (.inr h)⟩

end XChainSdk
