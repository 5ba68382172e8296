import XChainSdk.Protocol.CoinpayPlan

/-!
# When a coin payment plan is exact

Sums are rounded to 64 significant digits, and nothing is less than `NaN`.

* `owedTotals_spec` : the totals of a list of obligations, rounded after every addition.
* `roundedTotal_eq_owedTo` : without a rounding they are the exact sums.
* `checkCoinpayOutputPlan_eq_nil_iff` : which plans are accepted.
* `coinpayPlan_exact_iff` : **the plans of a list and of its prefixes are exact and the check is
  right exactly when no sum needs more than 64 digits and no accepted output amount is `NaN`**.
-/

namespace XChainSdk

open Js

/-! ### Significant digits -/

/-- A number that rounding keeps has no more digits. -/
theorem fitsSig_of_roundSig {p : ℕ} {q : ℚ} (h : roundSig p q = q) : FitsSig p q := by
  have hunit := (sigUnit_pos p q).ne'
  have habs : (⌊|q| / sigUnit p q + 1 / 2⌋ : ℚ) * sigUnit p q = |q| := by
    by_cases hneg : q < 0
    · rw [roundSig, if_pos hneg] at h
      rw [abs_of_neg hneg] at h ⊢
      linarith
    · rw [roundSig, if_neg hneg] at h
      rw [abs_of_nonneg (not_lt.1 hneg)] at h ⊢
      exact h
  rw [FitsSig, ← eq_div_iff hunit |>.2 habs]
  exact Rat.den_intCast _

/-! ### What is owed -/

/-- The payees of a list of obligations. -/
def payees (obligations : List Js) : List String := (obligations.filter hasPayee).map payeeText

/-- An obligation to a payee. -/
def owes (payee : String) (o : Js) : Bool := hasPayee o && payeeText o == payee

theorem mem_payees {obligations : List Js} {payee : String} :
    payee ∈ payees obligations ↔ ∃ o ∈ obligations, owes payee o = true := by
  simp only [payees, List.mem_map, List.mem_filter, owes, Bool.and_eq_true, beq_iff_eq]
  constructor
  · rintro ⟨o, ⟨ho, hp⟩, rfl⟩
    exact ⟨o, ho, hp, rfl⟩
  · rintro ⟨o, ho, hp, rfl⟩
    exact ⟨o, ⟨ho, hp⟩, rfl⟩

section Owed

variable (M : MathJs)

/-- The amounts owed to a payee, in order. -/
def owedAmounts (payee : String) (obligations : List Js) : List ℚ :=
  (obligations.filter (owes payee)).map fun o => (M.value (amountText o)).getD 0

/-- The exact sum owed to a payee. -/
def owedTo (payee : String) (obligations : List Js) : ℚ := (owedAmounts M payee obligations).sum

/-- The sum as the package adds it up. -/
def roundedTotal (payee : String) (obligations : List Js) : ℚ :=
  (owedAmounts M payee obligations).foldl (fun acc x => roundSig BIGNUMBER_PRECISION (acc + x)) 0

/-- Every amount that is owed is a finite number. -/
def FiniteAmounts (obligations : List Js) : Prop :=
  ∀ o ∈ obligations, hasPayee o = true → (M.value (amountText o)).isSome

variable {M} {payee : String} {pre obligations : List Js} {o : Js}

theorem FiniteAmounts.of_prefix (h : FiniteAmounts M obligations) (hpre : pre <+: obligations) :
    FiniteAmounts M pre := fun o ho => h o (hpre.subset ho)

theorem owedAmounts_append_singleton : owedAmounts M payee (pre ++ [o]) =
    owedAmounts M payee pre ++
      if owes payee o then [(M.value (amountText o)).getD 0] else [] := by
  rw [owedAmounts, List.filter_append, List.map_append, ← owedAmounts]
  by_cases h : owes payee o = true
  · simp [h]
  · simp [h]

theorem owedTo_append_singleton : owedTo M payee (pre ++ [o]) = owedTo M payee pre +
    if owes payee o then (M.value (amountText o)).getD 0 else 0 := by
  rw [owedTo, owedAmounts_append_singleton, List.sum_append, ← owedTo]
  split_ifs
  · rw [List.sum_singleton]
  · rw [List.sum_nil]

theorem roundedTotal_append_singleton : roundedTotal M payee (pre ++ [o]) =
    if owes payee o then
      roundSig BIGNUMBER_PRECISION (roundedTotal M payee pre + (M.value (amountText o)).getD 0)
    else roundedTotal M payee pre := by
  rw [roundedTotal, owedAmounts_append_singleton, List.foldl_append, ← roundedTotal]
  split_ifs
  · rfl
  · rfl

theorem payees_append_singleton : payees (pre ++ [o]) =
    payees pre ++ if hasPayee o then [payeeText o] else [] := by
  rw [payees, List.filter_append, List.map_append, ← payees]
  by_cases h : hasPayee o = true
  · simp [h]
  · simp [h]

theorem isDecimal_roundedTotal (payee : String) (obligations : List Js) :
    IsDecimal (roundedTotal M payee obligations) := by
  induction obligations using List.reverseRecOn with
  | nil => exact isDecimal_intCast 0
  | append_singleton pre o ih =>
    rw [roundedTotal_append_singleton]
    split_ifs
    · exact isDecimal_roundSig _ _
    · exact ih

/-! ### The loop over the obligations -/

/-- What the loop has gathered. -/
structure OwedSpec (M : MathJs) (obligations : List Js) (s : OwedTotals) : Prop where
  nodup : s.order.Nodup
  mem_order : ∀ payee, payee ∈ s.order ↔ payee ∈ payees obligations
  total : ∀ payee, s.total payee = .fin (roundedTotal M payee obligations)

theorem total_setEntry (totals : List (String × JsNum)) (order order' : List String)
    (payee payee' : String) (x : JsNum) :
    (OwedTotals.mk order (Loop.setEntry totals payee x)).total payee' =
      if payee' = payee then x else (OwedTotals.mk order' totals).total payee' := by
  rw [OwedTotals.total, Loop.lookup_setEntry]
  split_ifs
  · rfl
  · rfl

/-- One obligation more. -/
theorem OwedSpec.step {s : OwedTotals} (h : OwedSpec M pre s)
    (ho : hasPayee o = true → (M.value (amountText o)).isSome) :
    ∃ t, addObligation M s o = some t ∧ OwedSpec M (pre ++ [o]) t := by
  by_cases hpayee : hasPayee o = true
  · obtain ⟨x, hx⟩ := Option.isSome_iff_exists.1 (ho hpayee)
    have hbig := M.value_eq_some.1 hx
    refine ⟨_, by rw [addObligation, hpayee, hbig]; rfl, ?_, fun payee => ?_, fun payee => ?_⟩
    · dsimp only
      split_ifs with hmem
      · exact h.nodup
      · exact List.nodup_append.2 ⟨h.nodup, List.nodup_singleton _, fun a ha b hb =>
          fun hab => hmem (by rw [← List.mem_singleton.1 hb, ← hab]; exact ha)⟩
    · rw [payees_append_singleton, if_pos hpayee, List.mem_append, List.mem_singleton,
        ← h.mem_order]
      dsimp only
      split_ifs with hmem
      · constructor
        · exact .inl
        · rintro (hp | rfl)
          · exact hp
          · exact hmem
      · rw [List.mem_append, List.mem_singleton]
    · rw [total_setEntry _ _ s.order, roundedTotal_append_singleton, owes, hpayee, Bool.true_and,
        hx, Option.getD_some]
      by_cases hp : payee = payeeText o
      · subst hp
        rw [if_pos rfl, if_pos (by simp), h.total]
        rfl
      · rw [if_neg hp, if_neg (by simpa using fun he => hp he.symm)]
        exact h.total payee
  · refine ⟨s, by rw [addObligation]; simp [hpayee], h.nodup, fun payee => ?_, fun payee => ?_⟩
    · rw [payees_append_singleton, if_neg hpayee, List.append_nil]
      exact h.mem_order payee
    · rw [roundedTotal_append_singleton, owes, if_neg (by simp [hpayee])]
      exact h.total payee

/-- The totals of a list of obligations, rounded after every addition. -/
theorem owedTotals_spec (h : FiniteAmounts M obligations) :
    ∃ s, owedTotals M obligations = some s ∧ OwedSpec M obligations s := by
  induction obligations using List.reverseRecOn with
  | nil => exact ⟨{}, rfl, List.nodup_nil, fun _ => by simp [payees], fun _ => rfl⟩
  | append_singleton pre o ih =>
    obtain ⟨s, hs, hspec⟩ := ih (h.of_prefix (List.prefix_append ..))
    obtain ⟨t, ht, htspec⟩ := hspec.step (h o (by simp))
    refine ⟨t, ?_, htspec⟩
    rw [owedTotals, Loop.foldlM_append_singleton, ← owedTotals, hs]
    exact ht

end Owed

/-! ### Exact totals -/

section Exact

variable (M : MathJs)

/-- No sum that is owed needs more digits than the package keeps. -/
def FitsTotals (obligations : List Js) : Prop :=
  ∀ payee ∈ payees obligations, FitsSig BIGNUMBER_PRECISION (owedTo M payee obligations)

variable {M} {payee : String} {pre obligations outputs : List Js}

theorem roundedTotal_of_notMem (h : payee ∉ payees obligations) :
    roundedTotal M payee obligations = 0 ∧ owedTo M payee obligations = 0 := by
  have hnone : obligations.filter (owes payee) = [] := by
    refine List.filter_eq_nil_iff.2 fun o ho howes => h (mem_payees.2 ⟨o, ho, howes⟩)
  rw [roundedTotal, owedTo, owedAmounts, hnone]
  exact ⟨rfl, rfl⟩

/-- Without a rounding the total is the exact sum.  The induction is on the prefixes. -/
theorem roundedTotal_eq_owedTo (h : ∀ pre, pre <+: obligations → FitsTotals M pre) (payee : String) :
    roundedTotal M payee obligations = owedTo M payee obligations := by
  induction obligations using List.reverseRecOn with
  | nil => rfl
  | append_singleton pre o ih =>
    have hpre := ih fun q hq => h q (hq.trans (List.prefix_append ..))
    rw [roundedTotal_append_singleton, owedTo_append_singleton, hpre]
    by_cases howes : owes payee o = true
    · have hfits := h (pre ++ [o]) (List.prefix_refl _) payee
        (mem_payees.2 ⟨o, by simp, howes⟩)
      rw [owedTo_append_singleton, if_pos howes] at hfits
      rw [if_pos howes, if_pos howes, roundSig_of_fits hfits]
    · rw [if_neg howes, if_neg howes, add_zero]

/-- Exact totals for every prefix need no rounding. -/
theorem fitsTotals_of_roundedTotal (h : ∀ pre, pre <+: obligations → ∀ payee ∈ payees pre,
    roundedTotal M payee pre = owedTo M payee pre) : FitsTotals M obligations := by
  induction obligations using List.reverseRecOn with
  | nil =>
    intro payee hpayee
    cases hpayee
  | append_singleton pre o ih =>
    intro payee hpayee
    have hsub : ∀ q, q <+: pre → ∀ p ∈ payees q, roundedTotal M p q = owedTo M p q :=
      fun q hq => h q (hq.trans (List.prefix_append ..))
    have htotal := h (pre ++ [o]) (List.prefix_refl _) payee hpayee
    rw [roundedTotal_append_singleton] at htotal
    by_cases howes : owes payee o = true
    · have hpre : roundedTotal M payee pre = owedTo M payee pre := by
        by_cases hmem : payee ∈ payees pre
        · exact hsub pre (List.prefix_refl _) payee hmem
        · obtain ⟨h1, h2⟩ := roundedTotal_of_notMem (M := M) hmem
          rw [h1, h2]
      rw [if_pos howes, hpre, owedTo_append_singleton, if_pos howes] at htotal
      rw [owedTo_append_singleton, if_pos howes]
      exact fitsSig_of_roundSig htotal
    · have hmem : payee ∈ payees pre := by
        obtain ⟨o', ho', howes'⟩ := mem_payees.1 hpayee
        rcases List.mem_append.1 ho' with ho' | ho'
        · exact mem_payees.2 ⟨o', ho', howes'⟩
        · rw [List.mem_singleton.1 ho'] at howes'
          exact absurd howes' howes
      rw [owedTo_append_singleton, if_neg howes, add_zero]
      exact ih hsub payee hmem

/-! ### Accepted plans -/

variable (M) in
/-- The first output to a payee is at least `sum`. -/
def PaysInFull (outputs : List Js) (payee : String) (sum : ℚ) : Prop :=
  ∃ output x, firstPaying outputs payee = some output ∧
    M.bignumber (amountText output) = some x ∧ (JsNum.fin sum).le x = true

variable (M) in
/-- The first output to a payee has an amount that reads as `NaN`. -/
def PaysNaN (outputs : List Js) (payee : String) : Prop :=
  ∃ output, firstPaying outputs payee = some output ∧
    M.bignumber (amountText output) = some .nan

theorem not_paysInFull_of_paysNaN {sum : ℚ} (h : PaysNaN M outputs payee) :
    ¬ PaysInFull M outputs payee sum := by
  rintro ⟨output', x, hfirst', hx, hle⟩
  obtain ⟨output, hfirst, hnan⟩ := h
  obtain rfl := Option.some.inj (hfirst.symm.trans hfirst')
  obtain rfl := Option.some.inj (hnan.symm.trans hx)
  cases hle

theorem lt_eq_false_iff {x : JsNum} {q : ℚ} :
    x.lt (.fin q) = false ↔ (JsNum.fin q).le x = true ∨ x = .nan := by
  cases x with
  | nan => simp [JsNum.lt]
  | inf negative => cases negative <;> simp [JsNum.lt, JsNum.le]
  | fin p => simp [JsNum.lt, JsNum.le]

/-- A payee has no violation when its first output covers its total, or is `NaN`. -/
theorem payeeViolation_eq_none_iff {total : ℚ} :
    payeeViolation M outputs payee (.fin total) = some none ↔
      PaysInFull M outputs payee total ∨ PaysNaN M outputs payee := by
  rw [payeeViolation, PaysInFull, PaysNaN]
  cases hfirst : firstPaying outputs payee with
  | none => simp
  | some output =>
    dsimp only
    cases hx : M.bignumber (amountText output) with
    | none => simp [hx]
    | some x =>
      cases hlt : x.lt (.fin total) with
      | true =>
        have hle : (JsNum.fin total).le x = false ∧ x ≠ .nan := by
          have hnot : ¬ (x.lt (.fin total) = false) := by simp [hlt]
          rw [lt_eq_false_iff, not_or] at hnot
          exact ⟨by simpa using hnot.1, hnot.2⟩
        simp [hx, hlt, hle.1, hle.2]
      | false =>
        have hor := lt_eq_false_iff.1 hlt
        simp [hx, hlt, hor]

theorem reduceOption_eq_nil_iff {α : Type} {xs : List (Option α)} :
    xs.reduceOption = [] ↔ ∀ x ∈ xs, x = none := by
  rw [show xs.reduceOption = xs.filterMap id from rfl, List.filterMap_eq_nil_iff]
  rfl

/-- Which plans are accepted, for the totals as they are rounded. -/
theorem checkCoinpayOutputPlan_eq_nil_iff (h : FiniteAmounts M obligations) :
    checkCoinpayOutputPlan M obligations outputs = some [] ↔ ∀ payee ∈ payees obligations,
      PaysInFull M outputs payee (roundedTotal M payee obligations) ∨ PaysNaN M outputs payee := by
  obtain ⟨s, hs, hspec⟩ := owedTotals_spec h
  have hverdict : ∀ payee, payeeViolation M outputs payee (s.total payee) = some none ↔
      PaysInFull M outputs payee (roundedTotal M payee obligations) ∨ PaysNaN M outputs payee :=
    fun payee => by rw [hspec.total, payeeViolation_eq_none_iff]
  rw [checkCoinpayOutputPlan, hs]
  constructor
  · intro hcheck payee hpayee
    obtain ⟨s', hs', hcheck⟩ := Option.bind_eq_some_iff.1 hcheck
    cases hs'
    obtain ⟨verdicts, hall, hnil⟩ := Option.bind_eq_some_iff.1 hcheck
    have hmap := Loop.mapM_eq_some_iff.1 hall
    have hnone := reduceOption_eq_nil_iff.1 (Option.some.inj hnil)
    obtain ⟨i, hi, rfl⟩ := List.mem_iff_getElem.1 ((hspec.mem_order payee).2 hpayee)
    have hi' : i < verdicts.length := hmap.length_eq ▸ hi
    have hget := hmap.get hi hi'
    rw [List.get_eq_getElem, List.get_eq_getElem, hnone _ (List.getElem_mem hi')] at hget
    exact (hverdict _).1 hget
  · intro hall
    have hmap : s.order.mapM (fun payee => payeeViolation M outputs payee (s.total payee)) =
        some (s.order.map fun _ => none) := by
      refine Loop.mapM_eq_some_iff.2 ?_
      rw [List.forall₂_map_right_iff, List.forall₂_same]
      exact fun payee hpayee => (hverdict payee).2 (hall payee ((hspec.mem_order payee).1 hpayee))
    change ((s.order.mapM fun payee => payeeViolation M outputs payee (s.total payee)).bind _) = _
    rw [hmap, Option.bind_some]
    exact congrArg some (reduceOption_eq_nil_iff.2 fun x hx => by
      obtain ⟨_, -, rfl⟩ := List.mem_map.1 hx
      rfl)

end Exact

/-! ### When a plan is exact -/

section Plan

variable (M : MathJs)

/-- The plan of a list of obligations passes the check and has one output for each payee, with the
exact sum; and a list of outputs is accepted exactly when the first output to each payee covers its
sum. -/
structure PlanMeets (obligations outputs : List Js) : Prop where
  exact : ∃ plan, planCoinpayOutputs M obligations = some plan ∧
    checkCoinpayOutputPlan M obligations (plan.map PlannedOutput.toOutput) = some [] ∧
    (plan.map PlannedOutput.payee).Nodup ∧
    (∀ payee, payee ∈ plan.map PlannedOutput.payee ↔ payee ∈ payees obligations) ∧
    ∀ e ∈ plan, M.value e.amount = some (owedTo M e.payee obligations)
  check_iff : checkCoinpayOutputPlan M obligations outputs = some [] ↔
    ∀ payee ∈ payees obligations, PaysInFull M outputs payee (owedTo M payee obligations)

/-- No list of outputs is accepted for an amount that is `NaN`: when the first output to every payee
covers its sum or is `NaN`, none is `NaN`. -/
def NoNaNAccepted (obligations outputs : List Js) : Prop :=
  (∀ payee ∈ payees obligations,
    PaysInFull M outputs payee (owedTo M payee obligations) ∨ PaysNaN M outputs payee) →
  ∀ payee ∈ payees obligations, ¬ PaysNaN M outputs payee

variable {M} {obligations outputs : List Js}

theorem firstPaying_plan {amount : String → String} {order : List String} {payee : String}
    (h : payee ∈ order) :
    firstPaying ((order.map fun p => (⟨p, amount p⟩ : PlannedOutput)).map PlannedOutput.toOutput)
      payee = some (PlannedOutput.toOutput ⟨payee, amount payee⟩) := by
  induction order with
  | nil => cases h
  | cons p order ih =>
    have haddress : ((PlannedOutput.toOutput ⟨p, amount p⟩).field "address").toText = p :=
      Js.toText_str p
    rw [List.map_cons, List.map_cons, firstPaying, List.find?_cons, haddress]
    by_cases hp : p = payee
    · subst hp
      simp [PlannedOutput.toOutput, truthy]
    · have hmem : payee ∈ order := (List.mem_cons.1 h).resolve_left fun he => hp he.symm
      have hne : (p == payee) = false := beq_false_of_ne hp
      rw [hne, Bool.and_false]
      exact ih hmem

/-- A plan has the totals as they are rounded, and passes the check. -/
theorem planCoinpayOutputs_spec (h : FiniteAmounts M obligations) :
    ∃ plan, planCoinpayOutputs M obligations = some plan ∧
      checkCoinpayOutputPlan M obligations (plan.map PlannedOutput.toOutput) = some [] ∧
      (plan.map PlannedOutput.payee).Nodup ∧
      (∀ payee, payee ∈ plan.map PlannedOutput.payee ↔ payee ∈ payees obligations) ∧
      ∀ e ∈ plan, M.value e.amount = some (roundedTotal M e.payee obligations) := by
  obtain ⟨s, hs, hspec⟩ := owedTotals_spec h
  have hamount : ∀ payee, M.bignumber (s.total payee).toFixedText =
      some (.fin (roundedTotal M payee obligations)) := fun payee => by
    rw [hspec.total]
    exact M.bignumber_toFixed _ (isDecimal_roundedTotal _ _)
  have hpayees : (s.order.map fun p => (⟨p, (s.total p).toFixedText⟩ : PlannedOutput)).map
      PlannedOutput.payee = s.order := by
    rw [List.map_map]
    exact List.map_id _
  refine ⟨_, by rw [planCoinpayOutputs, hs]; rfl, ?_, ?_, ?_, ?_⟩
  · refine (checkCoinpayOutputPlan_eq_nil_iff h).2 fun payee hpayee => .inl ?_
    refine ⟨_, .fin (roundedTotal M payee obligations),
      firstPaying_plan ((hspec.mem_order payee).2 hpayee), ?_, ?_⟩
    · have htext : amountText (PlannedOutput.toOutput ⟨payee, (s.total payee).toFixedText⟩) =
          (s.total payee).toFixedText := Js.toText_str _
      rw [htext, hamount]
    · simp [JsNum.le]
  · rw [hpayees]
    exact hspec.nodup
  · rw [hpayees]
    exact hspec.mem_order
  · intro e he
    obtain ⟨payee, -, rfl⟩ := List.mem_map.1 he
    exact M.value_eq_some.2 (hamount payee)

/-- **When a plan is exact.**  Roundings may cancel in a longer list, so this is about the list and
its prefixes. -/
theorem coinpayPlan_exact_iff (M : MathJs) (obligations outputs : List Js)
    (h : FiniteAmounts M obligations) :
    (∀ pre, pre <+: obligations → PlanMeets M pre outputs) ↔
      ∀ pre, pre <+: obligations → FitsTotals M pre ∧ NoNaNAccepted M pre outputs := by
  constructor
  · intro hmeets
    have htotal : ∀ pre, pre <+: obligations → ∀ payee ∈ payees pre,
        roundedTotal M payee pre = owedTo M payee pre := by
      intro pre hpre payee hpayee
      obtain ⟨plan, hplan, -, -, hmem, hsum⟩ := (hmeets pre hpre).exact
      obtain ⟨plan', hplan', -, -, -, hrounded⟩ := planCoinpayOutputs_spec (h.of_prefix hpre)
      obtain rfl := Option.some.inj (hplan.symm.trans hplan')
      obtain ⟨e, he, rfl⟩ := List.mem_map.1 ((hmem payee).2 hpayee)
      exact Option.some.inj ((hrounded e he).symm.trans (hsum e he))
    intro pre hpre
    refine ⟨fitsTotals_of_roundedTotal fun q hq => htotal q (hq.trans hpre), fun hall => ?_⟩
    intro payee hpayee hnan
    have hcheck := (@checkCoinpayOutputPlan_eq_nil_iff M pre outputs (h.of_prefix hpre)).2
      fun p hp => by rw [htotal pre hpre p hp]; exact hall p hp
    exact not_paysInFull_of_paysNaN hnan ((hmeets pre hpre).check_iff.1 hcheck payee hpayee)
  · intro hcond pre hpre
    have htotal : ∀ payee, roundedTotal M payee pre = owedTo M payee pre :=
      roundedTotal_eq_owedTo fun q hq => (hcond q (hq.trans hpre)).1
    have hfinite := h.of_prefix hpre
    refine ⟨?_, ?_⟩
    · obtain ⟨plan, hplan, hcheck, hnodup, hmem, hsum⟩ := planCoinpayOutputs_spec hfinite
      exact ⟨plan, hplan, hcheck, hnodup, hmem, fun e he => by rw [hsum e he, htotal]⟩
    · rw [checkCoinpayOutputPlan_eq_nil_iff hfinite]
      simp only [htotal]
      constructor
      · intro hall payee hpayee
        exact (hall payee hpayee).resolve_right ((hcond pre hpre).2 hall payee hpayee)
      · intro hall payee hpayee
        exact .inl (hall payee hpayee)

/-- An obligation, as a composer writes it. -/
def obligation (payee amount : String) : Js := .obj [("payee", .str payee), ("amount", .str amount)]

theorem coinpayPlan_exact_iff_two :
    FiniteAmounts plainMath [obligation "A" "1.5", obligation "A" "2"] ∧
    ((∀ pre, pre <+: [obligation "A" "1.5", obligation "A" "2"] →
        PlanMeets plainMath pre [PlannedOutput.toOutput ⟨"A", "3.5"⟩]) ↔
      ∀ pre, pre <+: [obligation "A" "1.5", obligation "A" "2"] →
        FitsTotals plainMath pre ∧
          NoNaNAccepted plainMath pre [PlannedOutput.toOutput ⟨"A", "3.5"⟩]) := by
  have h : FiniteAmounts plainMath [obligation "A" "1.5", obligation "A" "2"] := by
    unfold FiniteAmounts
    decide +kernel
  exact ⟨h, coinpayPlan_exact_iff plainMath _ _ h⟩

/-- `1` and 64 zeros. -/
def longAmount : String := String.ofList ('1' :: List.replicate 64 '0')

/-- Two obligations whose sum has 65 digits. -/
def longObligations : List Js := [obligation "A" longAmount, obligation "A" "1"]

/-- A reader that takes plain decimals and `NaN`. -/
def nanMath : MathJs where
  bignumber s := if s = "NaN" then some .nan else plainMath.bignumber s
  bignumber_decimal s h := by
    rw [if_neg]
    · exact plainMath.bignumber_decimal s h
    · rintro rfl
      exact absurd h (by decide)
  bignumber_toFixed q h := by
    rw [if_neg]
    · exact plainMath.bignumber_toFixed q h
    · intro hnan
      have hread := decimalText_toFixed h
      rw [hnan] at hread
      have hnone : decimalText "NaN" = none := by decide
      rw [hnone] at hread
      cases hread
  isDecimal_bignumber s q h := by
    split_ifs at h
    · cases h
    · exact plainMath.isDecimal_bignumber s q h

/-- The plan of a sum of 65 digits leaves out its last digit, and an output whose amount is `NaN`
settles any sum. -/
theorem coinpayPlan_inexact :
    FiniteAmounts plainMath longObligations ∧ ¬ PlanMeets plainMath longObligations [] ∧
      FiniteAmounts nanMath [obligation "A" "5"] ∧
      ¬ PlanMeets nanMath [obligation "A" "5"] [.obj [("address", .str "A"), ("amount", .num .nan)]] := by
  refine ⟨?_, fun h => ?_, ?_, fun h => ?_⟩
  · unfold FiniteAmounts
    decide +kernel
  · obtain ⟨plan, hplan, -, -, -, hsum⟩ := h.exact
    have hplan' : planCoinpayOutputs plainMath longObligations = some [⟨"A", longAmount⟩] := by
      decide +kernel
    obtain rfl := Option.some.inj (hplan.symm.trans hplan')
    exact absurd (hsum ⟨"A", longAmount⟩ (by simp)) (by decide +kernel)
  · unfold FiniteAmounts
    decide +kernel
  · have hcheck : checkCoinpayOutputPlan nanMath [obligation "A" "5"]
        [.obj [("address", .str "A"), ("amount", .num .nan)]] = some [] := by
      decide +kernel
    have hcovers := h.check_iff.1 hcheck "A" (by decide +kernel)
    exact not_paysInFull_of_paysNaN ⟨_, rfl, by decide +kernel⟩ hcovers

end Plan

end XChainSdk
