import XChainSdk.Lib.Billing
import XChainSdk.Preflight.FeeProjection

/-!
# The budget of a batch against greedy billing

The chain bills the commands of a batch in the order of the list against one balance, and a command
whose fee does not fit pays nothing (`Billing`).

* `GreedyBudget` : what the finding on a batch is meant to say.
* `SumsAgree` : the rounded running sums compare with the balance as the exact ones do.
* `checkBatchFees_greedy_iff` : when the finding says it.
-/

namespace XChainSdk

open Billing

variable {M : MathJs}

/-! ### The purpose -/

/-- The quote of a command, if there is one. -/
def commandFee (p : Option CommandPricing) : Option Fee := p.bind CommandPricing.fee

/-- The number that a quote spells. -/
def Fee.value (fee : Fee) : ℚ := (decimalText fee.amount).getD 0

/-- What is known of the charges of a batch. -/
def commandCosts (pricings : List (Option CommandPricing)) : List (Option ℚ) :=
  pricings.map fun p => (commandFee p).map Fee.value

/-- The quotes of a batch. -/
def knownFees (pricings : List (Option CommandPricing)) : List Fee := pricings.filterMap commandFee

/-- The charges that are known. -/
def knownCosts (pricings : List (Option CommandPricing)) : List ℚ :=
  (knownFees pricings).map Fee.value

/-- Every command has a quote. -/
def AllKnown (pricings : List (Option CommandPricing)) : Prop :=
  ∀ p ∈ pricings, (commandFee p).isSome

/-- **What the finding on a batch is meant to say.** -/
structure GreedyBudget (M : MathJs) (ctx : FeeContext) (gas : Option GasConfig) (b : ℚ)
    (pricings : List (Option CommandPricing)) : Prop where
  /-- the batch is refused as a whole only where no command can pay -/
  collapse : ∀ f, checkBatchFees M ctx gas pricings = some (.found f) → f.severity = .error →
    (∀ p ∈ pricings, ∃ fee, commandFee p = some fee ∧ fee.bound = true ∧ 0 < fee.value) ∧
      count b (knownCosts pricings) = 0
  /-- nothing is said where every known fee is paid, whatever the others turn out to be -/
  covered : ∀ costs, Completes (commandCosts pricings) costs →
    KnownServed (commandCosts pricings) b costs →
    ∀ f, checkBatchFees M ctx gas pricings ≠ some (.found f)
  /-- the number of commands that are paid -/
  affordable : AllKnown pricings → ∀ f k, checkBatchFees M ctx gas pricings = some (.found f) →
    Js.member f.data "affordable" = .num k → k = .fin (count b (knownCosts pricings))

/-! ### The condition -/

/-- A quote is a plain amount, marked as charged when it is positive. -/
def Fee.Quoted (M : MathJs) (fee : Fee) : Prop :=
  isNonNegativeDecimal fee.amount = true ∧
    Numeric.isPositive M (.str fee.amount) = some fee.chargeable

/-- The budget is checked against a balance. -/
structure JudgedBudget (M : MathJs) (ctx : FeeContext) (gas : Option GasConfig) (balance : String)
    (b : ℚ) : Prop where
  debit : xchainFeeDebit ctx.feeMode gas = true
  source : ctx.source.truthy = true
  lookup : ctx.balance = some balance
  spells : Spells balance b
  /-- the lookup of the balance has read the local deltas -/
  deltas : (deltaApplied M GAS_TICK "0" ctx.localDeltas).isSome

/-- The running sums, rounded as they are, are on the same side of the balance as the exact ones. -/
def RunningSums (M : MathJs) (balance : String) (b : ℚ) : String → ℚ → List Fee → Prop
  | _, _, [] => True
  | spent, x, fee :: fees => ∃ next, Numeric.add M (.str spent) (.str fee.amount) = some next ∧
      Numeric.gte M (.str balance) (.str next) = some (decide (x + fee.value ≤ b)) ∧
      RunningSums M balance b next (x + fee.value) fees

/-- The arithmetic of the check agrees with the exact one as far as it is compared. -/
structure SumsAgree (M : MathJs) (balance : String) (b : ℚ) (fees : List Fee) : Prop where
  reads : readable b = b
  each : ∀ fee ∈ fees, readable fee.value = fee.value
  sums : RunningSums M balance b "0" 0 fees

/-! ### Quotes -/

variable {balance total spent : String} {b x : ℚ} {fee : Fee} {fees : List (Option Fee)}
  {known : List Fee} {pricings : List (Option CommandPricing)} {ctx : FeeContext}
  {gas : Option GasConfig} {cheapest : Option String}

theorem Fee.Quoted.spells (h : fee.Quoted M) : Spells fee.amount fee.value ∧ 0 ≤ fee.value := by
  obtain ⟨q, hq, hnonneg, -⟩ := decimalText_of_isNonNegativeDecimal h.1
  rw [Fee.value, hq, Option.getD_some]
  exact ⟨.inl ⟨h.1, hq⟩, hnonneg⟩

/-- A price of plain units at a plain rate is a quote. -/
theorem quoteFee_quoted {units gasPrice : String} {u p : ℚ} {bound : Bool} (hu : Spells units u)
    (hu0 : 0 ≤ u) (hp : Spells gasPrice p) (hp0 : 0 ≤ p)
    (h : quoteFee M units gasPrice bound = some (some fee)) : fee.Quoted M := by
  obtain ⟨amount, hgas, h⟩ := Option.bind_eq_some_iff.1 h
  obtain ⟨chargeable, hpositive, h⟩ := Option.bind_eq_some_iff.1 h
  cases h
  refine ⟨?_, hpositive⟩
  have hround : 0 ≤ roundSig BIGNUMBER_PRECISION (u * p) := roundSig_nonneg (mul_nonneg hu0 hp0)
  obtain ⟨hplain, hvalue⟩ := toFixedAt_spec 8 hround
  obtain ⟨v, hv, hnext⟩ := Numeric.add_of_spells (M := M) (.inl ⟨hplain, hvalue⟩) spells_zero
  have hsame : v = amount := by
    simp only [gasFee, hu.bignumber M, hp.bignumber M, Option.bind_eq_bind, Option.bind_some,
      JsNum.times] at hgas
    exact Option.some.inj (hv.symm.trans hgas)
  rw [← hsame]
  refine hnext.isNonNegativeDecimal (roundSig_nonneg (add_nonneg ?_ ?_))
  · exact readable_nonneg (by positivity)
  · exact readable_nonneg le_rfl

theorem freeFee_quoted (bound : Bool) : (freeFee bound).Quoted M := by
  have hplain : isNonNegativeDecimal "0" = true := by decide
  have hzero : ¬ 0 < readable 0 := by decide
  exact ⟨hplain, by simp [freeFee, Numeric.isPositive_of_spells spells_zero, hzero]⟩

/-- The days of a positive duration are a positive number. -/
theorem bignumber_of_isPositive (hM : M.ReadsSigned) {y days : JsNum}
    (hpositive : Numeric.isPositive M (.str (toFixedAt 0 y)) = some true)
    (h : M.bignumber (toFixedAt 0 y) = some days) : ∃ q, days = .fin q ∧ 0 ≤ q := by
  obtain ⟨z, hz, hpos⟩ := Option.bind_eq_some_iff.1 hpositive
  cases y with
  | nan =>
    have hnan : trim "NaN" = "NaN" := by decide
    simp only [toFixedAt, JsNum.toFixedText, Utility.bcnum, Js.toText_str, hnan, true_or,
      if_true] at hz
    cases hz
    cases hpos
  | inf neg =>
    have hinf : trim "Infinity" = "Infinity" := by decide
    have hneg : trim "-Infinity" = "-Infinity" := by decide
    cases neg <;>
      simp only [toFixedAt, JsNum.toFixedText, Utility.bcnum, Js.toText_str, hinf, hneg, true_or, or_true,
        if_true] at hz <;> cases hz <;> cases hpos
  | fin q =>
    obtain ⟨hfs, -, -⟩ := lastDigits_spec 0 (fixedUnits 0 q)
    have hip := allDigits_toDigits (fixedUnits 0 q / 10 ^ 0)
    have hne : Nat.toDigits 10 (fixedUnits 0 q / 10 ^ 0) ≠ [] := Nat.toDigits_ne_nil
    have htext : toFixedAt 0 (.fin q) = String.ofList (signedText (decide (q < 0))
        (Nat.toDigits 10 (fixedUnits 0 q / 10 ^ 0)) (lastDigits 0 (fixedUnits 0 q))) := by
      by_cases hneg : q < 0 <;> simp [toFixedAt, signedText, hneg]
    have hread := hM (decide (q < 0)) _ _ hip hne hfs
    rw [htext, hread] at h
    cases h
    rw [htext, bcnum_signedText hip hne hfs hread] at hz
    cases hz
    refine ⟨_, rfl, ?_⟩
    have hlt := of_decide_eq_true (Option.some.inj hpos)
    rcases readable_eq_or_zero (signedValue (decide (q < 0)) _ (lastDigits 0 (fixedUnits 0 q)))
      with hsame | hzero
    · exact hsame ▸ hlt.le
    · exact absurd hzero hlt.ne'

theorem spells_natText (n : ℕ) : Spells (natText n) n := by
  have hip := allDigits_toDigits n
  have hne : Nat.toDigits 10 n ≠ [] := Nat.toDigits_ne_nil
  have hfs : AllDigits [] := fun _ h => by cases h
  have htext : natText n = String.ofList (pointText (Nat.toDigits 10 n) []) := by
    simp [natText, pointText]
  have hvalue : digitsValue (Nat.toDigits 10 n) = n := Nat.ofDigitChars_ten_toDigits
  refine .inl ⟨isNonNegativeDecimal_iff.2 ⟨_, _, hip, hne, hfs, ?_⟩, ?_⟩
  · rw [htext, String.toList_ofList]
  · rw [htext, decimalText_pointText hip hne hfs]
    simp [hvalue]

variable {H : Host} {cmd : BatchCommand} {config : GasConfig}

theorem projectIssueFee_quoted (hprice : isNonNegativeDecimal config.gasPrice = true)
    (h : projectIssueFee M H ctx cmd (some config) = some (some fee)) : fee.Quoted M := by
  obtain ⟨p, hp, hp0⟩ := spells_of_isNonNegativeDecimal hprice
  simp only [projectIssueFee] at h
  split at h
  · cases h
  split at h
  · cases h
  split at h
  · cases h
  split at h
  · cases h
    exact freeFee_quoted true
  split at h
  · cases h
  · cases h
    exact freeFee_quoted true
  split at h
  · cases h
  · exact quoteFee_quoted (spells_natText _) (Nat.cast_nonneg _) hp hp0 h

theorem projectExecuteFee_quoted (hprice : isNonNegativeDecimal config.gasPrice = true)
    (h : projectExecuteFee M ctx (some config) = some (some fee)) : fee.Quoted M := by
  obtain ⟨p, hp, hp0⟩ := spells_of_isNonNegativeDecimal hprice
  simp only [projectExecuteFee] at h
  split at h
  · exact quoteFee_quoted (spells_natText _) (Nat.cast_nonneg _) hp hp0 h
  · cases h

theorem daysFee_quoted (hM : M.ReadsSigned) {y : JsNum} {perDay : ℕ} {gasPrice : String}
    (hprice : isNonNegativeDecimal gasPrice = true)
    (h : daysFee M (toFixedAt 0 y) perDay gasPrice = some (some fee)) : fee.Quoted M := by
  obtain ⟨p, hp, hp0⟩ := spells_of_isNonNegativeDecimal hprice
  obtain ⟨positive, hpositive, h⟩ := Option.bind_eq_some_iff.1 h
  cases positive with
  | false =>
    cases h
    exact freeFee_quoted false
  | true =>
    obtain ⟨days, hdays, h⟩ := Option.bind_eq_some_iff.1 h
    obtain ⟨q, rfl, hq⟩ := bignumber_of_isPositive hM hpositive hdays
    have hcost : 0 ≤ roundSig BIGNUMBER_PRECISION (q * perDay) :=
      roundSig_nonneg (mul_nonneg hq (Nat.cast_nonneg _))
    obtain ⟨hplain, hvalue⟩ := toFixedAt_spec 0 hcost
    exact quoteFee_quoted (.inl ⟨hplain, hvalue⟩) (by positivity) hp hp0 h

theorem projectDurationFee_quoted (hM : M.ReadsSigned)
    (hprice : isNonNegativeDecimal config.gasPrice = true)
    (h : projectDurationFee M ctx cmd (some config) = some (some fee)) : fee.Quoted M := by
  simp only [projectDurationFee] at h
  split at h
  · cases h
  split at h
  · split at h
    · cases h
      exact freeFee_quoted true
    split at h
    · cases h
    obtain ⟨days, hdays, h⟩ := Option.bind_eq_some_iff.1 h
    obtain ⟨expires, -, hdays⟩ := Option.bind_eq_some_iff.1 hdays
    obtain ⟨left, -, hdays⟩ := Option.bind_eq_some_iff.1 hdays
    obtain ⟨expireDays, -, hdays⟩ := Option.bind_eq_some_iff.1 hdays
    cases hdays
    exact daysFee_quoted hM hprice h
  · cases h

theorem debitedFee_quoted {feeMode : Js} {project : Option (Option Fee)} {pricing : CommandPricing}
    (hproject : project = some (some fee) → fee.Quoted M)
    (h : debitedFee feeMode gas project = some pricing) (hfee : pricing.fee = some fee) :
    fee.Quoted M := by
  unfold debitedFee at h
  split at h
  · obtain ⟨quote, hquote, rfl⟩ := Option.map_eq_some_iff.1 h
    exact hproject (hquote.trans (congrArg some hfee))
  · cases h
    cases hfee
    exact freeFee_quoted true

/-- **What the projections quote is a plain amount, marked as charged when it is positive.** -/
theorem projectCommandFee_quoted (hM : M.ReadsSigned) {pricing : CommandPricing}
    (hprice : ∀ config, gas = some config → isNonNegativeDecimal config.gasPrice = true)
    (h : projectCommandFee M H ctx cmd gas = some pricing) (hfee : pricing.fee = some fee) :
    fee.Quoted M := by
  unfold projectCommandFee at h
  split at h
  · refine debitedFee_quoted (fun hproject => ?_) h hfee
    cases gas with
    | none => cases hproject
    | some config => exact projectIssueFee_quoted (hprice config rfl) hproject
  split at h
  · refine debitedFee_quoted (fun hproject => ?_) h hfee
    cases gas with
    | none => cases hproject
    | some config => exact projectDurationFee_quoted hM (hprice config rfl) hproject
  split at h
  · refine debitedFee_quoted (fun hproject => ?_) h hfee
    cases gas with
    | none => cases hproject
    | some config => exact projectExecuteFee_quoted (hprice config rfl) hproject
  · cases h
    cases hfee

theorem Fee.Quoted.chargeable_iff (h : fee.Quoted M) :
    fee.chargeable = true ↔ 0 < readable fee.value := by
  have hpositive := Numeric.isPositive_of_spells (M := M) h.spells.1
  rw [h.2] at hpositive
  rw [Option.some.inj hpositive, decide_eq_true_eq]

theorem knownFees_eq (pricings : List (Option CommandPricing)) :
    (budgetFees pricings).filterMap id = knownFees pricings := by
  rw [budgetFees, knownFees, List.filterMap_filterMap]
  congr 1
  funext p
  rcases p with _ | _ | fee <;> rfl

theorem budgetFees_of_allKnown (h : AllKnown pricings) :
    budgetFees pricings = (knownFees pricings).map some := by
  induction pricings with
  | nil => rfl
  | cons p pricings ih =>
    rw [AllKnown, List.forall_mem_cons] at h
    obtain ⟨hp, hrest⟩ := h
    rcases p with _ | _ | _ | fee
    · cases hp
    · cases hp
    · cases hp
    · have ih' := ih hrest
      simp only [budgetFees, knownFees] at ih' ⊢
      simp [commandFee, CommandPricing.fee, ih']

theorem commandCosts_filterMap (pricings : List (Option CommandPricing)) :
    (commandCosts pricings).filterMap id = knownCosts pricings := by
  rw [commandCosts, knownCosts, knownFees, List.filterMap_map, List.map_filterMap]
  rfl

theorem allPriced_eq_true (h : allPriced pricings = true) : ∀ p ∈ pricings,
    ∃ fee, commandFee p = some fee ∧ fee.chargeable = true ∧ fee.bound = true := by
  intro p hp
  have hgrade := List.all_eq_true.1 h p hp
  rcases p with _ | _ | _ | fee
  · cases hgrade
  · cases hgrade
  · cases hgrade
  · simp only [CommandPricing.collapseGrade, CommandPricing.fee, Option.any_some,
      Bool.and_eq_true] at hgrade
    exact ⟨fee, rfl, hgrade⟩

/-! ### The loops -/

/-- The cheapest fee so far reads as no more than `r`. -/
def AtMost (cheapest : Option String) (r : ℚ) : Prop :=
  ∃ c y, cheapest = some c ∧ Spells c y ∧ readable y ≤ r

/-- The fee replaces the cheapest one if it is charged and reads as less. -/
theorem isCheaper_spec (hfee : Spells fee.amount fee.value)
    (hc : ∀ c, cheapest = some c → ∃ y, Spells c y) : ∃ cheaper,
      isCheaper M fee cheapest = some cheaper ∧
      (∀ r, AtMost cheapest r → AtMost (if cheaper then some fee.amount else cheapest) r) ∧
      (fee.chargeable = true →
        AtMost (if cheaper then some fee.amount else cheapest) (readable fee.value)) := by
  have hself : AtMost (some fee.amount) (readable fee.value) := ⟨_, _, rfl, hfee, le_rfl⟩
  cases cheapest with
  | none =>
    refine ⟨_, rfl, fun r hr => ?_, fun hcharge => by rwa [if_pos hcharge]⟩
    obtain ⟨c, y, hnone, -⟩ := hr
    cases hnone
  | some c =>
    cases hcharge : fee.chargeable with
    | false =>
      exact ⟨false, by simp [isCheaper, hcharge], fun _ h => h, fun h => by cases h⟩
    | true =>
      obtain ⟨y, hy⟩ := hc c rfl
      refine ⟨decide (readable fee.value < readable y),
        by simp [isCheaper, hcharge, Numeric.gt_of_spells hy hfee], fun r hr => ?_, fun _ => ?_⟩
      · by_cases hlt : readable fee.value < readable y
        · obtain ⟨c', y', hsame, hy', hle⟩ := hr
          cases hsame
          have heq : y = y' := by simpa using (hy.bignumber plainMath).symm.trans (hy'.bignumber _)
          rw [if_pos (decide_eq_true hlt)]
          exact ⟨_, _, rfl, hfee, hlt.le.trans (heq ▸ hle)⟩
        · simpa only [hlt, decide_false, Bool.false_eq_true, if_false] using hr
      · by_cases hlt : readable fee.value < readable y
        · rwa [if_pos (decide_eq_true hlt)]
        · simp only [hlt, decide_false, Bool.false_eq_true, if_false]
          exact ⟨c, y, rfl, hy, not_lt.1 hlt⟩

/-- The loop over the fees ends with a plain total and a fee that no charged one undercuts. -/
theorem sumFees_spec (hquoted : ∀ fee ∈ fees.filterMap id, fee.Quoted M) (ht : Spells total x)
    (hx : 0 ≤ x) (hc : ∀ c, cheapest = some c → ∃ y, Spells c y) :
    ∃ total' cheapest' x', sumFees M total cheapest fees = some (total', cheapest') ∧
      Spells total' x' ∧ 0 ≤ x' ∧ (∀ c, cheapest' = some c → ∃ y, Spells c y) ∧
      (∀ r, AtMost cheapest r → AtMost cheapest' r) ∧
      ∀ fee ∈ fees.filterMap id, fee.chargeable = true → AtMost cheapest' (readable fee.value) := by
  induction fees generalizing total cheapest x with
  | nil => exact ⟨total, cheapest, x, rfl, ht, hx, hc, fun _ h => h, by simp⟩
  | cons fee fees ih =>
    cases fee with
    | none => exact ih (by simpa using hquoted) ht hx hc
    | some fee =>
      have hlist : (some fee :: fees).filterMap id = fee :: fees.filterMap id := by simp
      rw [hlist, List.forall_mem_cons] at hquoted
      obtain ⟨hfee, hrest⟩ := hquoted
      obtain ⟨hspells, hnonneg⟩ := hfee.spells
      obtain ⟨next, hadd, hnext⟩ := Numeric.add_of_spells (M := M) ht hspells
      have hnext0 : 0 ≤ roundSig BIGNUMBER_PRECISION (readable x + readable fee.value) :=
        roundSig_nonneg (add_nonneg (readable_nonneg hx) (readable_nonneg hnonneg))
      obtain ⟨cheaper, hcheaper, hkeep, hlow⟩ :=
        isCheaper_spec (M := M) hspells hc
      have hc' : ∀ c, (if cheaper then some fee.amount else cheapest) = some c →
          ∃ y, Spells c y := by
        intro c hsome
        split at hsome
        · cases hsome
          exact ⟨_, hspells⟩
        · exact hc c hsome
      obtain ⟨total', cheapest', x', hsum, ht', hx', hc'', hmono, hall⟩ := ih hrest hnext hnext0 hc'
      refine ⟨total', cheapest', x', ?_, ht', hx', hc'', fun r hr => hmono r (hkeep r hr), ?_⟩
      · simp only [sumFees, hadd, hcheaper, Option.bind_eq_bind, Option.bind_some, hsum]
      · rw [hlist, List.forall_mem_cons]
        exact ⟨fun hcharge => hmono _ (hlow hcharge), hall⟩

/-- The total compares with the balance as the exact sum does. -/
theorem sumFees_total (hsums : RunningSums M balance b total x (fees.filterMap id))
    (hstart : Numeric.gte M (.str balance) (.str total) = some (decide (x ≤ b)))
    {total' : String} {cheapest' : Option String}
    (h : sumFees M total cheapest fees = some (total', cheapest')) :
    Numeric.gte M (.str balance) (.str total') =
      some (decide (x + ((fees.filterMap id).map Fee.value).sum ≤ b)) := by
  induction fees generalizing total cheapest x with
  | nil =>
    cases h
    simpa using hstart
  | cons fee fees ih =>
    cases fee with
    | none => simpa using ih (by simpa using hsums) hstart h
    | some fee =>
      have hlist : (some fee :: fees).filterMap id = fee :: fees.filterMap id := by simp
      rw [hlist] at hsums ⊢
      obtain ⟨next, hadd, hgte, hrest⟩ := hsums
      simp only [sumFees, hadd, Option.bind_eq_bind, Option.bind_some] at h
      obtain ⟨cheaper, -, hsum⟩ := Option.bind_eq_some_iff.1 h
      rw [ih hrest hgte hsum, List.map_cons, List.sum_cons, add_assoc]

/-- The count is that of the prefix that fits. -/
theorem affordableFees_eq (hsums : RunningSums M balance b spent x known) :
    affordableFees M balance spent (known.map some) =
      some (fits (b - x) (known.map Fee.value)) := by
  induction known generalizing spent x with
  | nil => rfl
  | cons fee known ih =>
    obtain ⟨next, hadd, hgte, hrest⟩ := hsums
    have hfits : fee.value ≤ b - x ↔ x + fee.value ≤ b := le_sub_iff_add_le'
    rw [List.map_cons, List.map_cons, affordableFees, fits]
    by_cases hle : x + fee.value ≤ b
    · rw [decide_eq_true hle] at hgte
      have hleft : b - x - fee.value = b - (x + fee.value) := sub_sub _ _ _
      simp [hadd, hgte, ih hrest, hfits.2 hle, hleft]
    · rw [decide_eq_false hle] at hgte
      simp [hadd, hgte, hfits, hle]

/-- What was netted can be read. -/
theorem deltaApplied_reads {tick sum : String} {deltas : List Js} {t : String}
    (h : deltaApplied M tick sum deltas = some t) (hsum : ∃ y, Utility.bcnum M (.str sum) = some y) :
    ∃ y, Utility.bcnum M (.str t) = some y := by
  induction deltas generalizing sum with
  | nil =>
    cases h
    exact hsum
  | cons d deltas ih =>
    rw [deltaApplied] at h
    cases hamount : deltaAmount tick d with
    | none => exact ih (by simpa only [hamount] using h) hsum
    | some amount =>
      simp only [hamount, Option.bind_eq_bind] at h
      obtain ⟨next, hadd, hrest⟩ := Option.bind_eq_some_iff.1 h
      exact ih hrest (Numeric.add_reads hadd)

/-! ### The finding -/

/-- Every charged command has a price, and the balance does not read as the cheapest one. -/
def Collapses (cheapest : Option String) (b : ℚ) (allPriced : Bool) : Prop :=
  allPriced = true ∧ ∃ c y, cheapest = some c ∧ Spells c y ∧ readable b < readable y

theorem belowCheapest_of_not {ap : Bool} (hb : Spells balance b)
    (hc : ∀ c, cheapest = some c → ∃ y, Spells c y) (h : ¬ Collapses cheapest b ap) :
    belowCheapest M balance ap cheapest = some false := by
  cases ap with
  | false => rfl
  | true =>
    cases cheapest with
    | none => rfl
    | some c =>
      obtain ⟨z, hz⟩ := hc c rfl
      have hle : readable z ≤ readable b := by
        by_contra hlt
        exact h ⟨rfl, c, z, rfl, hz, not_le.1 hlt⟩
      simp [belowCheapest, Numeric.gte_of_spells hb hz, hle]

/-- What is found where the balance does not cover the total. -/
theorem shortfall_spec {deltas : List Js} (total : String) (fees : List (Option Fee)) (ap : Bool)
    (hdeltas : (deltaApplied M GAS_TICK "0" deltas).isSome) (hb : Spells balance b)
    (hc : ∀ c, cheapest = some c → ∃ y, Spells c y) :
    ∃ netting reserved, (∀ e ∈ reserved, e.1 = "localDeltaApplied") ∧
      (Collapses cheapest b ap ∧ shortfall M balance total cheapest fees deltas ap =
          some (collapseFinding balance netting total (cheapest.getD "") fees reserved) ∨
        ¬ Collapses cheapest b ap ∧ shortfall M balance total cheapest fees deltas ap =
          (affordableFees M balance "0" fees).map
            (partialFinding balance netting total cheapest fees reserved)) := by
  obtain ⟨inFlight, hin⟩ := Option.isSome_iff_exists.1 hdeltas
  obtain ⟨y, hy⟩ := deltaApplied_reads hin ⟨_, spells_zero.bcnum M⟩
  have hpositive : Numeric.isPositive M (.str inFlight) = some ((JsNum.fin 0).lt y) := by
    simp [Numeric.isPositive, hy]
  refine ⟨if (JsNum.fin 0).lt y then " after " ++ inFlight ++
    " already committed from this wallet" else "",
    if (JsNum.fin 0).lt y then [("localDeltaApplied", Js.str inFlight)] else [], ?_, ?_⟩
  · intro e he
    split at he
    · rw [List.mem_singleton.1 he]
    · cases he
  · by_cases hcollapse : Collapses cheapest b ap
    · obtain ⟨hap, c, z, rfl, hz, hlt⟩ := hcollapse
      have hgte := Numeric.gte_of_spells (M := M) hb hz
      rw [decide_eq_false (not_le.2 hlt)] at hgte
      exact .inl ⟨⟨hap, c, z, rfl, hz, hlt⟩, by
        simp [shortfall, belowCheapest, hin, hpositive, hap, hgte]⟩
    · refine .inr ⟨hcollapse, ?_⟩
      simp only [shortfall, hin, hpositive, Option.bind_eq_bind, Option.bind_some,
        belowCheapest_of_not hb hc hcollapse]
      cases affordableFees M balance "0" fees <;> rfl

/-- A finding is made only where the balance does not read as the total. -/
theorem checkFeeBudget_spec (ap : Bool) (hjudged : JudgedBudget M ctx gas balance b)
    (hquoted : ∀ fee ∈ fees.filterMap id, fee.Quoted M) :
    ∃ total cheapest x, sumFees M "0" none fees = some (total, cheapest) ∧ Spells total x ∧ 0 ≤ x ∧
      (∀ c, cheapest = some c → ∃ y, Spells c y) ∧
      (∀ fee ∈ fees.filterMap id, fee.chargeable = true →
        AtMost cheapest (readable fee.value)) ∧
      ((readable x ≤ 0 ∨ readable x ≤ readable b) ∧
          (∀ f, checkFeeBudget M ctx fees gas ap ≠ some (.found f)) ∨
        0 < readable x ∧ readable b < readable x ∧ checkFeeBudget M ctx fees gas ap =
          (shortfall M balance total cheapest fees ctx.localDeltas ap).map .found) := by
  obtain ⟨total, cheapest, x, hsum, ht, hx, hc, -, hall⟩ :=
    sumFees_spec hquoted spells_zero le_rfl fun c (hc : none = some c) => by cases hc
  refine ⟨total, cheapest, x, hsum, ht, hx, hc, hall, ?_⟩
  have hpositive := Numeric.isPositive_of_spells (M := M) ht
  have hgte := Numeric.gte_of_spells (M := M) hjudged.spells ht
  by_cases hfees : fees = []
  · left
    subst hfees
    cases hsum
    have hzero : x = 0 := by simpa using (ht.bignumber M).symm.trans (spells_zero.bignumber M)
    rw [hzero]
    exact ⟨.inl (by decide), fun f h => by simp [checkFeeBudget] at h⟩
  · by_cases hpos : 0 < readable x
    · rw [decide_eq_true hpos] at hpositive
      by_cases hle : readable x ≤ readable b
      · rw [decide_eq_true hle] at hgte
        refine .inl ⟨.inr hle, fun f h => ?_⟩
        simp [checkFeeBudget, hfees, hjudged.debit, hsum, hpositive, hjudged.source, hjudged.lookup,
          hgte] at h
      · rw [decide_eq_false hle] at hgte
        refine .inr ⟨hpos, not_le.1 hle, ?_⟩
        simp only [checkFeeBudget, if_neg hfees, hjudged.debit, Bool.true_eq_false, if_false, hsum,
          Option.bind_eq_bind, Option.bind_some, hpositive, hjudged.source, hjudged.lookup, hgte,
          Bool.false_eq_true]
        cases shortfall M balance total cheapest fees ctx.localDeltas ap <;> rfl
    · rw [decide_eq_false hpos] at hpositive
      refine .inl ⟨.inl (not_lt.1 hpos), fun f h => ?_⟩
      simp [checkFeeBudget, hfees, hjudged.debit, hsum, hpositive] at h

theorem member_collapseFinding {netting c : String} {reserved : List (String × Js)}
    (h : ∀ e ∈ reserved, e.1 = "localDeltaApplied") :
    Js.member (collapseFinding balance netting total c fees reserved).data "affordable" =
      .undefined := by
  have hnone : reserved.lookup "affordable" = none := by
    refine List.lookup_eq_none_iff.2 fun e he => ?_
    rw [h e he]
    decide
  simp [collapseFinding, Js.member, hnone, List.lookup_cons]

theorem member_partialFinding {netting : String} {reserved : List (String × Js)} (k : ℕ) :
    Js.member (partialFinding balance netting total cheapest fees reserved k).data "affordable" =
      .num (.fin k) := by
  simp [partialFinding, Js.member, List.lookup_cons]

theorem sumFees_of_no_known (h : fees.filterMap id = []) :
    sumFees M total cheapest fees = some (total, cheapest) := by
  induction fees with
  | nil => rfl
  | cons fee fees ih =>
    cases fee with
    | none => exact ih (by simpa using h)
    | some fee => simp at h

/-! ### Sums of eight decimals -/

variable {q : ℚ}

/-- A number of eight decimals. -/
def EightDecimals (q : ℚ) : Prop := ∃ n : ℕ, q = n / 10 ^ 8

theorem roundSig_of_eightDecimals (h : EightDecimals q) (hlt : q < 10 ^ 56) :
    roundSig BIGNUMBER_PRECISION q = q := by
  obtain ⟨n, rfl⟩ := h
  refine roundSig_of_fits ?_
  have hnonneg : (0 : ℚ) ≤ n / 10 ^ 8 := by positivity
  rcases hnonneg.eq_or_lt with hzero | hpos
  · rw [FitsSig, ← hzero]
    simp
  · have hlog : Int.log 10 ((n : ℚ) / 10 ^ 8) < 56 := by
      rw [← Int.lt_zpow_iff_log_lt (by decide) hpos]
      exact_mod_cast hlt
    obtain ⟨k, hk⟩ : ∃ k : ℕ,
        Int.log 10 ((n : ℚ) / 10 ^ 8) - BIGNUMBER_PRECISION + 1 = -(8 + k) := by
      refine ⟨(55 - Int.log 10 ((n : ℚ) / 10 ^ 8)).toNat, ?_⟩
      rw [Int.toNat_of_nonneg (by omega)]
      simp only [BIGNUMBER_PRECISION]
      push_cast
      ring
    have hint : |(n : ℚ) / 10 ^ 8| / sigUnit BIGNUMBER_PRECISION (n / 10 ^ 8) =
        (n * 10 ^ k : ℕ) := by
      rw [sigUnit, abs_of_nonneg hnonneg, hk, zpow_neg, div_inv_eq_mul, zpow_add₀ (by norm_num)]
      push_cast
      rw [zpow_natCast]
      norm_num
      ring
    rw [FitsSig, hint]
    exact Rat.den_natCast _

theorem EightDecimals.add {p q : ℚ} (hp : EightDecimals p) (hq : EightDecimals q) :
    EightDecimals (p + q) := by
  obtain ⟨m, rfl⟩ := hp
  obtain ⟨n, rfl⟩ := hq
  exact ⟨m + n, by push_cast; ring⟩

theorem EightDecimals.nonneg (h : EightDecimals q) : 0 ≤ q := by
  obtain ⟨n, rfl⟩ := h
  positivity

/-- Sums of eight decimals below `10 ^ 56` are exact. -/
theorem runningSums_of_eightDecimals {known : List Fee} {spent : String} {x : ℚ}
    (hquoted : ∀ fee ∈ known, fee.Quoted M) (height : ∀ fee ∈ known, EightDecimals fee.value)
    (hb : Spells balance b) (hreads : readable b = b) (hs : Spells spent x) (hx : EightDecimals x)
    (hlt : x + (known.map Fee.value).sum < 10 ^ 56) : RunningSums M balance b spent x known := by
  induction known generalizing spent x with
  | nil => trivial
  | cons fee known ih =>
    rw [List.forall_mem_cons] at hquoted height
    obtain ⟨hfee, hrest⟩ := hquoted
    obtain ⟨hvalue, hvalues⟩ := height
    rw [List.map_cons, List.sum_cons, ← add_assoc] at hlt
    have hnonneg : 0 ≤ (known.map Fee.value).sum := by
      refine List.sum_nonneg fun c hc => ?_
      obtain ⟨f, hf, rfl⟩ := List.mem_map.1 hc
      exact (hvalues f hf).nonneg
    have hnext : x + fee.value < 10 ^ 56 := by linarith
    have hsmall {q : ℚ} (h0 : 0 ≤ q) (hle : q ≤ x + fee.value) : readable q = q := by
      refine readable_of_abs_le ?_
      rw [abs_of_nonneg h0]
      exact (hle.trans hnext.le).trans (by norm_num)
    obtain ⟨next, hadd, hspells⟩ := Numeric.add_of_spells (M := M) hs hfee.spells.1
    rw [hsmall hx.nonneg (by linarith [hvalue.nonneg]),
      hsmall hvalue.nonneg (by linarith [hx.nonneg]),
      roundSig_of_eightDecimals (hx.add hvalue) hnext] at hspells
    refine ⟨next, hadd, ?_, ih hrest hvalues hspells (hx.add hvalue) hlt⟩
    rw [Numeric.gte_of_spells hb hspells, hreads,
      hsmall (add_nonneg hx.nonneg hvalue.nonneg) le_rfl]

/-- **The arithmetic agrees on fees of eight decimals** whose total stays below `10 ^ 56`. -/
theorem sumsAgree_of_eightDecimals {known : List Fee} (hquoted : ∀ fee ∈ known, fee.Quoted M)
    (height : ∀ fee ∈ known, EightDecimals fee.value) (hb : Spells balance b) (hle : |b| ≤ 10 ^ 64)
    (hlt : (known.map Fee.value).sum < 10 ^ 56) : SumsAgree M balance b known where
  reads := readable_of_abs_le hle
  each := by
    intro fee hfee
    have hsum : fee.value ≤ (known.map Fee.value).sum := by
      refine List.single_le_sum (fun c hc => ?_) _ (List.mem_map_of_mem hfee)
      obtain ⟨f, hf, rfl⟩ := List.mem_map.1 hc
      exact (height f hf).nonneg
    refine readable_of_abs_le ?_
    rw [abs_of_nonneg (height fee hfee).nonneg]
    exact (hsum.trans hlt.le).trans (by norm_num)
  sums := by
    refine runningSums_of_eightDecimals hquoted height hb (readable_of_abs_le hle) spells_zero
      ⟨0, by simp⟩ ?_
    rwa [zero_add]

/-! ### The result -/

variable (hjudged : JudgedBudget M ctx gas balance b)
  (hquoted : ∀ p ∈ pricings, ∀ fee, commandFee p = some fee → fee.Quoted M)

include hquoted in
theorem quoted_of_mem_knownFees : ∀ fee ∈ knownFees pricings, fee.Quoted M := by
  intro fee hfee
  obtain ⟨p, hp, hcommand⟩ := List.mem_filterMap.1 hfee
  exact hquoted p hp fee hcommand

include hquoted in
theorem knownCosts_nonneg : ∀ c ∈ knownCosts pricings, 0 ≤ c := by
  intro c hc
  obtain ⟨fee, hfee, rfl⟩ := List.mem_map.1 hc
  exact (quoted_of_mem_knownFees hquoted fee hfee).spells.2

/-- How the check of a judged batch ends. -/
inductive BudgetEnd (M : MathJs) (ctx : FeeContext) (gas : Option GasConfig) (balance : String)
    (b : ℚ) (pricings : List (Option CommandPricing)) : Prop
  /-- nothing is found: the exact total is covered, or nothing known is charged -/
  | quiet (h : (knownCosts pricings).sum ≤ b ∨ b < 0)
      (hout : ∀ f, checkBatchFees M ctx gas pricings ≠ some (.found f))
  /-- every command is charged, and none can pay -/
  | collapse (f : Finding) (hsome : knownFees pricings ≠ []) (hpriced : allPriced pricings = true)
      (hlow : ∀ c ∈ knownCosts pricings, b < c) (hsum : b < (knownCosts pricings).sum)
      (hmember : Js.member f.data "affordable" = .undefined)
      (hout : checkBatchFees M ctx gas pricings = some (.found f))
  /-- the fees that fit the balance are counted -/
  | counted (make : ℕ → Finding) (hsome : knownFees pricings ≠ [])
      (hsum : b < (knownCosts pricings).sum)
      (hseverity : ∀ k, (make k).severity = .warning)
      (hmember : ∀ k, Js.member (make k).data "affordable" = .num (.fin k))
      (hout : checkBatchFees M ctx gas pricings =
        ((affordableFees M balance "0" (budgetFees pricings)).map make).map .found)

include hjudged hquoted in
theorem budgetEnd (hsums : SumsAgree M balance b (knownFees pricings)) :
    BudgetEnd M ctx gas balance b pricings := by
  have hknown : ∀ fee ∈ (budgetFees pricings).filterMap id, fee.Quoted M := by
    rw [knownFees_eq]
    exact quoted_of_mem_knownFees hquoted
  obtain ⟨total, cheapest, x, hsum, ht, hx, hc, hall, hend⟩ :=
    checkFeeBudget_spec (allPriced pricings) hjudged hknown
  have hruns : RunningSums M balance b "0" 0 ((budgetFees pricings).filterMap id) := by
    rw [knownFees_eq]
    exact hsums.sums
  have hstart : Numeric.gte M (.str balance) (.str "0") = some (decide ((0 : ℚ) ≤ b)) := by
    have hzero : readable 0 = 0 := by decide
    rw [Numeric.gte_of_spells hjudged.spells spells_zero, hzero, hsums.reads]
  -- the total and the exact sum are on the same side of the balance
  have hside : readable x ≤ b ↔ (knownCosts pricings).sum ≤ b := by
    have htotal := sumFees_total hruns hstart hsum
    rw [Numeric.gte_of_spells hjudged.spells ht, hsums.reads, knownFees_eq, zero_add] at htotal
    exact decide_eq_decide.1 (Option.some.inj htotal)
  rcases hend with ⟨hquiet, hout⟩ | ⟨hpos, hlt, hout⟩
  · refine .quiet ?_ hout
    rcases hquiet with hzero | hle
    · rcases lt_or_ge b 0 with hneg | hnonneg
      · exact .inr hneg
      · exact .inl (hside.1 (hzero.trans hnonneg))
    · exact .inl (hside.1 (hsums.reads ▸ hle))
  · rw [hsums.reads] at hlt
    have hexact : b < (knownCosts pricings).sum :=
      not_le.1 fun h => absurd (hside.2 h) (not_le.2 hlt)
    have hsome : knownFees pricings ≠ [] := by
      intro hnil
      rw [sumFees_of_no_known (by rw [knownFees_eq, hnil])] at hsum
      cases hsum
      have hzero : x = 0 := by simpa using (ht.bignumber M).symm.trans (spells_zero.bignumber M)
      rw [hzero] at hpos
      exact absurd hpos (by decide)
    obtain ⟨netting, reserved, hreserved, hfound⟩ := shortfall_spec total (budgetFees pricings)
      (allPriced pricings) hjudged.deltas hjudged.spells hc
    rcases hfound with ⟨hcollapse, hshort⟩ | ⟨-, hshort⟩
    · obtain ⟨hpriced, c, y, rfl, hy, hlow⟩ := hcollapse
      refine .collapse _ hsome hpriced (fun d hd => ?_) hexact (member_collapseFinding hreserved)
        (by rw [checkBatchFees, hout, hshort, Option.map_some])
      obtain ⟨fee, hfee, rfl⟩ := List.mem_map.1 hd
      obtain ⟨p, hp, hcommand⟩ := List.mem_filterMap.1 hfee
      obtain ⟨fee', hfee', hcharge, -⟩ := allPriced_eq_true hpriced p hp
      rw [hcommand] at hfee'
      cases hfee'
      obtain ⟨c', y', hsame, hy', hle⟩ := hall fee (by rwa [knownFees_eq]) hcharge
      cases hsame
      have heq : y = y' := by simpa using (hy.bignumber plainMath).symm.trans (hy'.bignumber _)
      rw [hsums.reads] at hlow
      rw [hsums.each fee hfee, ← heq] at hle
      exact hlow.trans_le hle
    · exact .counted _ hsome hexact (fun _ => rfl) (fun k => member_partialFinding k)
        (by rw [checkBatchFees, hout, hshort])

include hjudged hquoted in
/-- The finding follows greedy billing if and only if no fee after the prefix that fits could be
paid. -/
theorem greedyBudget_iff (hsums : SumsAgree M balance b (knownFees pricings)) :
    GreedyBudget M ctx gas b pricings ↔
      (AllKnown pricings → NothingLater b (knownCosts pricings)) := by
  have hnonneg := knownCosts_nonneg hquoted
  have hend := budgetEnd hjudged hquoted hsums
  constructor
  · intro h hall
    cases hend with
    | quiet hcovered hout =>
      rcases hcovered with hcovered | hneg
      · exact nothingLater_of_sum_le hnonneg hcovered
      · exact nothingLater_of_lt fun c hc => hneg.trans_le (hnonneg c hc)
    | collapse f hsome hpriced hlow hsum hmember hout => exact nothingLater_of_lt hlow
    | counted make hsome hsum hseverity hmember hout =>
      rw [budgetFees_of_allKnown hall, affordableFees_eq hsums.sums, sub_zero] at hout
      have hcount := h.affordable hall _ _ hout (hmember _)
      rw [← count_eq_fits_iff]
      exact_mod_cast (JsNum.fin.inj hcount).symm
  · intro h
    refine ⟨fun f hf herror => ?_, fun costs hcompletes hserved f hf => ?_, fun hall f k hf hk => ?_⟩
    · cases hend with
      | quiet hcovered hout => exact absurd hf (hout f)
      | collapse f' hsome hpriced hlow hsum hmember hout =>
        refine ⟨fun p hp => ?_, count_eq_zero_iff.2 hlow⟩
        obtain ⟨fee, hfee, hcharge, hbound⟩ := allPriced_eq_true hpriced p hp
        have hmem : fee ∈ knownFees pricings := List.mem_filterMap.2 ⟨p, hp, hfee⟩
        have hpositive := (hquoted p hp fee hfee).chargeable_iff.1 hcharge
        rw [hsums.each fee hmem] at hpositive
        exact ⟨fee, hfee, hbound, hpositive⟩
      | counted make hsome hsum hseverity hmember hout =>
        rw [hf] at hout
        obtain ⟨f', hf', hsame⟩ := Option.map_eq_some_iff.1 hout.symm
        obtain ⟨k, -, rfl⟩ := Option.map_eq_some_iff.1 hf'
        cases hsame
        rw [hseverity k] at herror
        cases herror
    · -- known fees that are all paid fit the balance together
      have hfits (hsome : knownFees pricings ≠ []) : (knownCosts pricings).sum ≤ b := by
        obtain ⟨fee, hfee⟩ := List.exists_mem_of_ne_nil _ hsome
        obtain ⟨p, hp, hcommand⟩ := List.mem_filterMap.1 hfee
        rw [← commandCosts_filterMap]
        refine sum_known_le hcompletes hserved ⟨some fee.value, ?_, rfl⟩
        exact List.mem_map.2 ⟨p, hp, by rw [hcommand, Option.map_some]⟩
      cases hend with
      | quiet hcovered hout => exact hout f hf
      | collapse f' hsome hpriced hlow hsum hmember hout =>
        exact absurd (hfits hsome) (not_le.2 hsum)
      | counted make hsome hsum hseverity hmember hout =>
        exact absurd (hfits hsome) (not_le.2 hsum)
    · cases hend with
      | quiet hcovered hout => exact absurd hf (hout f)
      | collapse f' hsome hpriced hlow hsum hmember hout =>
        rw [hout] at hf
        cases hf
        rw [hmember] at hk
        cases hk
      | counted make hsome hsum hseverity hmember hout =>
        rw [budgetFees_of_allKnown hall, affordableFees_eq hsums.sums, sub_zero, hf] at hout
        cases hout
        rw [hmember] at hk
        cases hk
        rw [count_eq_fits_iff.2 (h hall)]
        rfl

include hjudged hquoted in
/-- The same in terms of the fees: those of eight decimals, with a total that 64 digits hold. -/
theorem greedyBudget_iff_of_eightDecimals (height : ∀ c ∈ knownCosts pricings, EightDecimals c)
    (hle : |b| ≤ 10 ^ 64) (hlt : (knownCosts pricings).sum < 10 ^ 56) :
    GreedyBudget M ctx gas b pricings ↔
      (AllKnown pricings → NothingLater b (knownCosts pricings)) :=
  greedyBudget_iff hjudged hquoted <|
    sumsAgree_of_eightDecimals (quoted_of_mem_knownFees hquoted)
      (fun _ hfee => height _ (List.mem_map_of_mem hfee)) hjudged.spells hle hlt

/-- **The finding on a batch follows greedy billing**, as far as the rounded sums compare with the
balance like the exact ones, if and only if no fee after the prefix that fits could be paid. -/
theorem checkBatchFees_greedy_iff (M : MathJs) (ctx : FeeContext) (gas : Option GasConfig)
    (balance : String) (b : ℚ) (pricings : List (Option CommandPricing))
    (hjudged : JudgedBudget M ctx gas balance b)
    (hquoted : ∀ p ∈ pricings, ∀ fee, commandFee p = some fee → fee.Quoted M)
    (hsums : SumsAgree M balance b (knownFees pricings)) :
    GreedyBudget M ctx gas b pricings ↔
      (AllKnown pricings → NothingLater b (knownCosts pricings)) :=
  greedyBudget_iff hjudged hquoted hsums

/-! ### A new token and a new child of an old one -/

/-- A source with a balance. -/
def budgetContext (balance : String) : FeeContext where
  feeMode := .str "xchain"
  source := .str "addr"
  balance := some balance
  localDeltas := []
  token := fun _ => .absent
  nowSeconds := 0

/-- The issuance of a token, and that of a child. -/
def issuePair : List (Option CommandPricing) :=
  [some (.priced (some ⟨"1", true, true⟩)), some (.priced (some ⟨"0.5", true, true⟩))]

example : (["NEWTOKEN", "OLDTOKEN.CHILD"].map fun tick =>
    ((projectCommandFee plainMath plainHost (budgetContext "0.5") ⟨"ISSUE", .num (.fin 0),
      [("TICK", .str tick)]⟩ (gasConfig (.str "bitcoin-mainnet"))).bind
        CommandPricing.fee).map Fee.amount) = [some "1", some "0.5"] := by
  decide +kernel

theorem judged_budgetContext {balance : String} {b : ℚ} (h : Spells balance b) :
    JudgedBudget plainMath (budgetContext balance) none balance b :=
  ⟨rfl, rfl, rfl, h, rfl⟩

theorem quoted_issuePair : ∀ p ∈ issuePair, ∀ fee, commandFee p = some fee →
    fee.Quoted plainMath := by
  intro p hp fee hfee
  simp only [issuePair, List.mem_cons, List.not_mem_nil, or_false] at hp
  rcases hp with rfl | rfl <;> cases hfee <;> exact ⟨by decide, by decide +kernel⟩

theorem sumsAgree_issuePair {balance : String} {b : ℚ} (hb : Spells balance b)
    (hle : |b| ≤ 10 ^ 64) : SumsAgree plainMath balance b (knownFees issuePair) := by
  have hcosts : knownCosts issuePair = [1, 1 / 2] := by decide +kernel
  refine sumsAgree_of_eightDecimals (quoted_of_mem_knownFees quoted_issuePair) ?_ hb hle ?_
  · intro fee hfee
    have hmem : fee.value ∈ knownCosts issuePair := List.mem_map_of_mem hfee
    rw [hcosts] at hmem
    simp only [List.mem_cons, List.not_mem_nil, or_false] at hmem
    rcases hmem with hone | hhalf
    · exact ⟨10 ^ 8, by rw [hone]; norm_num⟩
    · exact ⟨5 * 10 ^ 7, by rw [hhalf]; norm_num⟩
  · change (knownCosts issuePair).sum < 10 ^ 56
    rw [hcosts]
    norm_num

/-- With the balance of the first fee, that one is paid and the other is not. -/
theorem checkBatchFees_greedy_one :
    GreedyBudget plainMath (budgetContext "1") none 1 issuePair := by
  rw [checkBatchFees_greedy_iff plainMath (budgetContext "1") none "1" 1 issuePair
    (judged_budgetContext (.inl ⟨by decide, by decide +kernel⟩)) quoted_issuePair
    (sumsAgree_issuePair (.inl ⟨by decide, by decide +kernel⟩) (by norm_num))]
  intro _ c hc
  revert c
  decide +kernel

/-- With the balance of the second fee, that one is paid, and none is reported. -/
theorem checkBatchFees_not_greedy :
    ¬ GreedyBudget plainMath (budgetContext "0.5") none (1 / 2) issuePair := by
  intro h
  have hspells : Spells "0.5" (1 / 2) := .inl ⟨by decide, by decide +kernel⟩
  have hend := budgetEnd (judged_budgetContext hspells) quoted_issuePair
    (sumsAgree_issuePair hspells (by norm_num))
  cases hend with
  | quiet hcovered hout => exact absurd hcovered (by decide +kernel)
  | collapse f hsome hpriced hlow hsum hmember hout =>
    exact absurd (hlow (1 / 2) (by decide +kernel)) (lt_irrefl _)
  | counted make hsome hsum hseverity hmember hout =>
    have hnone : affordableFees plainMath "0.5" "0" (budgetFees issuePair) = some 0 := by
      decide +kernel
    rw [hnone] at hout
    have hall : AllKnown issuePair := by
      intro p hp
      revert hp
      simp only [issuePair, List.mem_cons, List.not_mem_nil, or_false]
      rintro (rfl | rfl) <;> rfl
    have hcount := h.affordable hall _ _ hout (hmember 0)
    exact absurd hcount (by decide +kernel)

end XChainSdk
