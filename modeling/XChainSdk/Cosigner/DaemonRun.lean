import XChainSdk.Cosigner.Conservation
import XChainSdk.Cosigner.WindowLimits

/-!
# Runs of the daemon

A daemon serves requests and is restarted now and then.

* `Published` : an action that it authorized, with the later reveals of its commit.
* `DaemonRun`, `daemonStep` : a run; the published actions are listed beside the store.
* `StepMeets` : what a step has to meet for the window to hold.  Reveals are not charged, so one of
  a commit that the daemon did not charge goes uncounted.
* `evaluatePolicy_isText` : what is charged is text.
* `process_of_error`, `process_of_uncharged`, `process_of_charged` : the answer to a request.
-/

namespace XChainSdk

variable (H : Host) (M : MathJs) {B : Bitcoin} (D : Decoder) (self : CoSigner B) (hours : ℚ)

/-- An action that the daemon authorized, and when its own reveals followed. -/
structure Published where
  t : ℚ
  charge : Charge
  charged : Bool
  revealed : List ℚ

/-- The row of a published action. -/
def Published.entry (a : Published) : WindowEntry := a.charge.entry a.t

/-- One thing that happens to a daemon. -/
inductive DaemonOp where
  | request (req : Request) (owned : Bool) (outcome : WriteOutcome)
  | restart (init : Bool) (outcome : WriteOutcome)

/-- A daemon's store, the charges it attempted and the actions it authorized. -/
structure DaemonRun where
  store : Store
  log : List Attempt
  published : List Published

/-- The action is charged within the window, as this. -/
def Published.paysFor (now : ℚ) (own : Charge) (a : Published) : Bool :=
  a.charged && decide (a.charge = own) && own.txid.isSome && decide (now - windowMs hours ≤ a.t)

/-- Adds a reveal to the action that pays for it. -/
def attributeTo (own : Charge) (now : ℚ) : List Published → Option (List Published)
  | [] => none
  | a :: l =>
    if a.paysFor hours now own then some ({ a with revealed := a.revealed ++ [now] } :: l)
    else (attributeTo own now l).map (a :: ·)

/-- The charge of the commit that a reveal spends, if it carried the reveal's action. -/
def commitChargeOf (p : PreparedRequest) (e : Evaluation) : Charge :=
  { chargeOf (B := B) p.psbt e with txid := revealCommitTxid p.psbt }

/-- Lists an approved action: a reveal belongs to its commit, and a cancel publishes nothing. -/
def publish (B : Bitcoin) (now : ℚ) (p : PreparedRequest) (evaluation : Option Evaluation)
    (published : List Published) : List Published :=
  match evaluation with
  | none => published
  | some e =>
    if hasRole p.env .reveal then
      match attributeTo hours (commitChargeOf (B := B) p e) now published with
      | some l => l
      | none => published ++ [⟨now, chargeOf (B := B) p.psbt e, false, []⟩]
    else published ++ [⟨now, chargeOf (B := B) p.psbt e, true, []⟩]

/-- The charge that a judged request attempts. -/
def attemptedCharge (now : ℚ) (owned : Bool) (outcome : WriteOutcome) (s : Store)
    (charge : Option Charge) : List Attempt :=
  match charge with
  | none => []
  | some c =>
    if owned then [⟨c.entry now, fateOf outcome (recordBudget M now owned outcome c s).2⟩] else []

/-- One step of a daemon. -/
def daemonStep (r : DaemonRun) (step : ℚ × DaemonOp) : DaemonRun :=
  match step.2 with
  | .restart init outcome => { r with store := (start M init step.1 r.store.file outcome).1 }
  | .request req owned outcome =>
    let (answer, store) := process H M D self hours step.1 owned outcome req r.store
    match judge H M D self hours step.1 req r.store with
    | (.error _, _) => { r with store }
    | (.ok (_, p, evaluation), s) =>
      ⟨store,
        r.log ++ attemptedCharge M step.1 owned outcome s (chargeFor (B := B) p evaluation),
        if answer.isOk then publish hours B step.1 p evaluation r.published else r.published⟩

/-- A run from an empty disk. -/
def daemonRun (ops : List (ℚ × DaemonOp)) : DaemonRun :=
  ops.foldl (daemonStep H M D self hours) ⟨⟨.absent, none⟩, [], []⟩

/-! ### The condition on steps -/

/-- A charge fits, and what was revealed within the window is still charged in it. -/
structure ChargeMeets (now : ℚ) (rows : List WindowEntry) (published : List Published)
    (e : Evaluation) : Prop extends ChargeFits M rows e where
  reveals : ∀ b ∈ published, ∀ t ∈ b.revealed, now - windowMs hours ≤ t →
    now - windowMs hours ≤ b.t

/-- A reveal is of a commit that was charged for the same action within the window. -/
def RevealMeets (now : ℚ) (published : List Published) (own : Charge) : Prop :=
  ∃ b ∈ published, b.paysFor hours now own = true

/-- What a step has to meet, on the state before it. -/
def StepMeets (r : DaemonRun) (step : ℚ × DaemonOp) : Prop :=
  match step.2 with
  | .restart _ _ => True
  | .request req _ _ =>
    ∀ approval p e s, judge H M D self hours step.1 req r.store = (.ok (approval, p, some e), s) →
      if hasRole p.env .reveal then
        RevealMeets hours step.1 r.published (commitChargeOf (B := B) p e)
      else ChargeMeets M hours step.1 (s.memory.getD []) r.published e

/-- Every step of a run meets the condition. -/
def AllMeet (ops : List (ℚ × DaemonOp)) : Prop :=
  ∀ pre step post, ops = pre ++ step :: post →
    StepMeets H M D self hours (daemonRun H M D self hours pre) step

/-! ### What a charge passed -/

section Charged

variable {H M D self hours} {policy : Policy} {data : ActionData} {e : Evaluation}

theorem amountFields_texts : ∀ e ∈ ACTION_VALUE_FIELDS,
    e.2.1.keys.all (fun k => !(["PARAMS", "ITEM"].contains k)) = true := by
  decide

theorem addLeg_isText {params : Params} (h : DecodedParams params) {keys : List String}
    (hkeys : ∀ k ∈ keys, k ∉ ["PARAMS", "ITEM"]) {s s' : LegSum}
    (hs : ∀ v, s.invalid = some v → IsText v) (hadd : addLeg M params s keys = some s') :
    ∀ v, s'.invalid = some v → IsText v := by
  unfold addLeg at hadd
  split at hadd
  · cases hadd
    exact hs
  · next v hv =>
    split_ifs at hadd
    · cases hadd
      exact hs
    · obtain ⟨total, -, rfl⟩ := Option.map_eq_some_iff.1 hadd
      exact hs
    · cases hadd
      intro w hw
      cases hw
      exact pick_isText h hkeys

theorem resolveAmount_isText {params : Params} (h : DecodedParams params) {a : AmountSource}
    (hkeys : ∀ k ∈ a.keys, k ∉ ["PARAMS", "ITEM"]) {amount : Js}
    (hr : resolveAmount M params a = some amount) : IsText amount := by
  cases a with
  | pick keys =>
    cases hr
    exact pick_isText h hkeys
  | sum legs =>
    obtain ⟨s, hs, hr⟩ := Option.bind_eq_some_iff.1 hr
    have hinv : (∀ keys ∈ legs, ∀ k ∈ keys, k ∉ ["PARAMS", "ITEM"]) →
        ∀ v, s.invalid = some v → IsText v := by
      refine Loop.foldlM_inv (fun pre t => (∀ keys ∈ pre, ∀ k ∈ keys, k ∉ ["PARAMS", "ITEM"]) →
        ∀ v, t.invalid = some v → IsText v) (fun _ v hv => by cases hv) ?_ hs
      intro pre keys t t' ht hadd hmem
      exact addLeg_isText h (hmem keys (by simp)) (ht fun k hk => hmem k (by simp [hk])) hadd
    have hlegs := hinv fun keys hk k hkk => hkeys k (List.mem_flatten.2 ⟨keys, hk, hkk⟩)
    cases hi : s.invalid with
    | some v =>
      simp only [hi, Option.pure_def, Option.some.injEq] at hr
      exact hr ▸ hlegs v hi
    | none =>
      simp only [hi, Option.pure_def, Option.some.injEq] at hr
      rw [← hr]
      split_ifs
      · exact .inr ⟨_, rfl⟩
      · exact .inl rfl

theorem resolveValue_amount_isText {params : Params} (h : DecodedParams params) {action : String}
    {amount tick : Js} (hr : resolveValue M action params = some (amount, tick)) :
    IsText amount := by
  unfold resolveValue at hr
  cases hl : ACTION_VALUE_FIELDS.lookup action with
  | none =>
    simp only [hl, Option.some.injEq, Prod.mk.injEq] at hr
    rw [← hr.1]
    exact pick_isText h (by decide)
  | some f =>
    obtain ⟨a, t⟩ := f
    obtain ⟨l, r, he, -⟩ := List.lookup_eq_some_iff.1 hl
    simp only [hl, Option.map_eq_some_iff, Prod.mk.injEq] at hr
    obtain ⟨a', ha', rfl, -⟩ := hr
    refine resolveAmount_isText h (fun k hk => ?_) ha'
    have hall := amountFields_texts (action, a, t) (by rw [he]; simp)
    simpa using List.all_eq_true.1 hall k hk

/-- What the co-signer charges is text. -/
theorem evaluatePolicy_isText {windowUsage : Option WindowUsage} (hp : DecodedParams data.params)
    (h : evaluatePolicy H M policy data windowUsage = .ok e) : IsText e.tick ∧ IsText e.amount := by
  obtain ⟨s, happ⟩ := evaluatePolicy_ok h
  have hprep := prepareEvaluation_ok happ.prepared
  obtain ⟨raw, hvalue, -⟩ := hprep.tick
  obtain ⟨b, rfl⟩ := setConfirmation_ok happ.confirmation
  exact ⟨hprep.tick_isText hp, resolveValue_amount_isText hp hvalue⟩

end Charged

/-! ### What a request passed -/

section Requests

variable {H M D self hours} {req : Request} {p : PreparedRequest} {approval : Approval}
  {evaluation : Option Evaluation} {e : Evaluation} {s s₁ : Store} {now : ℚ}

theorem decodeRequest_texts {psbt : Psbt} {env : Option Envelope} {data : ActionData}
    (h : decodeRequest D psbt env = .ok data) : DecodedParams data.params := by
  unfold decodeRequest at h
  dsimp only at h
  split at h
  · next d hd =>
    cases h
    split at hd
    · exact D.envelopeTexts _ _ hd
    · exact D.envelopeTexts _ _ hd
    · exact D.texts _ _ hd
    · exact D.texts _ _ hd
  · cases h

theorem prepareRequest_texts (h : prepareRequest D self req = .ok p) :
    DecodedParams p.decoded.params := by
  unfold prepareRequest at h
  obtain ⟨⟨psbt, inputs⟩, -, h⟩ := Checks.bind_eq_ok.1 h
  obtain ⟨validated, -, h⟩ := Checks.bind_eq_ok.1 h
  obtain ⟨env, -, h⟩ := Checks.bind_eq_ok.1 h
  obtain ⟨decoded, hd, h⟩ := Checks.bind_eq_ok.1 h
  cases h
  exact decodeRequest_texts hd

theorem evaluateRequest_ok {windowUsage : Option WindowUsage}
    (h : evaluateRequest H M self p windowUsage = .ok (some e)) :
    hasRole p.env .cancel = false ∧
      evaluatePolicy H M self.policy p.decoded windowUsage = .ok e := by
  unfold evaluateRequest at h
  cases hc : hasRole p.env .cancel with
  | true => simp [hc] at h
  | false =>
    simp only [hc, Bool.false_eq_true, if_false] at h
    cases hv : evaluatePolicy H M self.policy p.decoded windowUsage with
    | error r => simp [hv] at h
    | ok e' =>
      simp only [hv] at h
      obtain ⟨-, h⟩ := Checks.ite_error_eq_ok.1 h
      cases h
      exact ⟨rfl, rfl⟩

/-- A request that is neither a reveal nor a cancel is charged. -/
theorem chargeFor_some (hr : hasRole p.env .reveal = false) (hc : hasRole p.env .cancel = false) :
    chargeFor (B := B) p (some e) = some (chargeOf (B := B) p.psbt e) := by
  unfold chargeFor
  cases henv : p.env with
  | none => rfl
  | some env =>
    cases hrole : env.role with
    | commit => simp [hasRole, hrole]
    | reveal => simp [henv, hasRole, hrole] at hr
    | cancel => simp [henv, hasRole, hrole] at hc

theorem chargeFor_reveal (hr : hasRole p.env .reveal = true) :
    chargeFor (B := B) p evaluation = none := by
  unfold chargeFor
  cases henv : p.env with
  | none => simp [henv, hasRole] at hr
  | some env =>
    have hrole : env.role = .reveal := by simpa [henv, hasRole] using hr
    simp [hasRole, hrole]

theorem windowUsageOf_eq (hr : hasRole p.env .reveal = false) (entries : List WindowEntry) :
    windowUsageOf M hours now p entries = totals M (pruned hours now entries) := by
  simp [windowUsageOf, hr, snapshot]

theorem process_of_error {owned : Bool} {outcome : WriteOutcome} {d : Denial}
    (h : judge H M D self hours now req s = (.error d, s₁)) :
    process H M D self hours now owned outcome req s = (.error d, s₁) := by
  simp only [process, h]

theorem process_of_uncharged {owned : Bool} {outcome : WriteOutcome}
    (h : judge H M D self hours now req s = (.ok (approval, p, evaluation), s₁))
    (hc : chargeFor (B := B) p evaluation = none) :
    process H M D self hours now owned outcome req s = (.ok approval, s₁) := by
  simp only [process, h, hc]

theorem process_of_charged (owned : Bool) (outcome : WriteOutcome) {charge : Charge}
    (h : judge H M D self hours now req s = (.ok (approval, p, evaluation), s₁))
    (hc : chargeFor (B := B) p evaluation = some charge) :
    (process H M D self hours now owned outcome req s).2 =
        (recordBudget M now owned outcome charge s₁).1 ∧
      ((process H M D self hours now owned outcome req s).1.isOk = true ↔
        (recordBudget M now owned outcome charge s₁).2 = .returned) := by
  simp only [process, h, hc]
  cases hr : recordBudget M now owned outcome charge s₁ with
  | mk s'' result => cases result <;> simp [Except.isOk, Except.toBool]

/-- Judging changes the rows in memory by pruning at most. -/
theorem judge_inv {log : List Attempt} (h : StoreInv M hours now log s) :
    StoreInv M hours now log (judge H M D self hours now req s).2 := by
  unfold judge
  cases hm : s.memory with
  | none => exact h
  | some entries =>
    have hpruned : StoreInv M hours now log { s with memory := some (pruned hours now entries) } :=
      h.setMemory (h.memory entries hm).pruned
    dsimp only
    cases prepareRequest D self req with
    | error d => exact h
    | ok p =>
      dsimp only
      cases authorize H M self req p (some (windowUsageOf M hours now p entries)) with
      | error d => exact hpruned
      | ok r => exact hpruned

theorem recordBudget_inv {log : List Attempt} (h : StoreInv M hours now log s)
    {entries : List WindowEntry} (hm : s.memory = some entries) (owned : Bool)
    (outcome : WriteOutcome) (charge : Charge) :
    StoreInv M hours now (log ++ attemptedCharge M now owned outcome s (some charge))
      (recordBudget M now owned outcome charge s).1 := by
  unfold attemptedCharge recordBudget
  cases owned with
  | false => simpa using h
  | true =>
    simp only [if_true, hm, Option.getD_some]
    exact record_inv h (h.memory entries hm) charge outcome

end Requests

end XChainSdk
