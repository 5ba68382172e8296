import XChainSdk.Cosigner.PolicySoundness
import XChainSdk.Cosigner.WindowSpending

/-!
# The limits of a window

* `ChargeFits`, `ChargeJudged`, `evaluatePolicy_judged` : what the policy established about a charge
  that it judged on the totals of some rows.
* `Limits` : rows that keep the limits in every interval of the window's length.
* `Limits.charge` : one more row keeps them, when it was judged on rows that hold the recent ones.
-/

namespace XChainSdk

open SlidingWindow (inWindow within recent)

/-- Length of the window in milliseconds. -/
def windowMs (hours : ℚ) : ℚ := hours * 3600 * 1000

variable {H : Host} {M : MathJs} {hours now : ℚ} {policy : Policy} {data : ActionData}
  {e : Evaluation} {l rows : List WindowEntry} {r : WindowEntry}

/-! ### Tokens -/

theorem sameToken_of_tickFold {t t' : Js} (ht : IsText t) (ht' : IsText t')
    (h : tickFold t = tickFold t') : SameToken t t' := by
  rcases ht with rfl | ⟨s, rfl⟩ <;> rcases ht' with rfl | ⟨s', rfl⟩
  · exact .inl rfl
  · simp [tickFold] at h
  · simp [tickFold] at h
  · exact .inr ⟨s, s', rfl, rfl, by simpa [tickFold] using h⟩

theorem windowCap_congr {t t' : Js} (h : SameToken t t')
    (hamb : ambiguous t (windowPerTick policy) = false) :
    windowCap M policy t = windowCap M policy t' := by
  unfold windowCap capValue
  rw [capFor_congr h hamb]

/-! ### What a charge passed -/

/-- A charge is of a token that can be told apart, and its sums fit the package's digits. -/
structure ChargeFits (M : MathJs) (rows : List WindowEntry) (e : Evaluation) : Prop where
  nameable : Nameable e.tick
  sums : ExactTotals M rows
  spent : ∀ l, l <+: spentBy M (totals M rows) e.tick → FitsSig BIGNUMBER_PRECISION l.sum
  projected : ∀ a, M.value e.amount.toText = some a →
    FitsSig BIGNUMBER_PRECISION ((spentBy M (totals M rows) e.tick).sum + a)

/-- What the policy established about an action that is charged. -/
structure ChargeJudged (M : MathJs) (policy : Policy) (usage : WindowUsage) (e : Evaluation) :
    Prop where
  tick : IsText e.tick
  canonical : isUndefined e.amount = false → isNonNegativeDecimal e.amount.toText = true
  count : ∀ win q, policy.maxPerWindow = some win → win.maxActions = some (.fin q) →
    (usage.count : ℚ) + 1 ≤ q
  windowed : ∀ a c, isUndefined e.amount = false → M.value e.amount.toText = some a →
    windowCap M policy e.tick = some c → (spentBy M usage e.tick).sum + a ≤ c
  unambiguous : ambiguous e.tick (windowPerTick policy) = false

theorem evaluatePolicy_judged (ht : IsText e.tick) (hrows : ∀ r ∈ rows, TextRow M r)
    (hfit : ChargeFits M rows e)
    (h : evaluatePolicy H M policy data (some (totals M rows)) = .ok e) :
    ChargeJudged M policy (totals M rows) e := by
  obtain ⟨s, happ⟩ := evaluatePolicy_ok h
  have hprep := prepareEvaluation_ok happ.prepared
  obtain ⟨b, he⟩ := setConfirmation_ok happ.confirmation
  have htick : e.tick = s.evaluation.tick := by rw [he]
  have hamount : e.amount = s.evaluation.amount := by rw [he]
  have hread : Readable M (totals M rows) := (spellings_totals "" hrows hfit.sums).1
  have hstar : s.evaluation.tick ≠ .str "*" := fun hstar =>
    absurd (htick.trans hstar) hfit.nameable.1
  have hfits : Fits M (totals M rows) s.evaluation := by
    unfold Fits
    rw [← htick, ← hamount]
    exact ⟨hfit.spent, hfit.projected⟩
  refine ⟨ht, ?_, ?_, ?_, ?_⟩
  · rw [hamount]
    exact (checkBasics_ok happ.basics).1
  · intro win q hwin hmax
    have hlt := (checkWindow_ok hwin happ.window).1 _ hmax
    simpa [JsNum.lt] using hlt
  · intro a c hdef ha hc
    rw [hamount] at hdef ha
    rw [htick] at hc ⊢
    exact happ.windowed (htick ▸ ht) hread hstar hfits hdef ha hc
  · rw [htick]
    exact hprep.unambiguous _ (by simp [tickTables])

/-- A row with the token and the amount that were judged. -/
theorem ChargeJudged.textRow {usage : WindowUsage} (h : ChargeJudged M policy usage e)
    (hname : Nameable e.tick) (htick : r.tick = e.tick) (hamount : r.amount = e.amount) :
    TextRow M r := by
  refine ⟨by rw [htick]; exact h.tick, by rw [htick]; exact hname, fun hdef => ?_⟩
  rw [hamount] at hdef ⊢
  obtain ⟨q, hq, h0, -⟩ := decimalText_of_isNonNegativeDecimal (h.canonical hdef)
  exact ⟨q, by rw [M.value_decimal (h.canonical hdef), hq], h0⟩

/-! ### The limits -/

/-- In every interval of the window's length the rows are within the limits. -/
structure Limits (M : MathJs) (policy : Policy) (hours : ℚ) (l : List WindowEntry) : Prop where
  count : ∀ win q, policy.maxPerWindow = some win → win.maxActions = some (.fin q) → 0 ≤ q →
    ∀ x, ((within WindowEntry.t (windowMs hours) x l).length : ℚ) ≤ q
  spend : ∀ x, ∀ b ∈ within WindowEntry.t (windowMs hours) x l, isUndefined b.amount = false →
    ∀ c, windowCap M policy b.tick = some c →
      spending M (tickFold b.tick) (within WindowEntry.t (windowMs hours) x l) ≤ c

theorem Limits.nil : Limits M policy hours [] where
  count := by
    intro win q _ _ h0 x
    simpa [within] using h0
  spend := by simp [within]

theorem pruned_eq_recent (l : List WindowEntry) :
    pruned hours now l = recent WindowEntry.t (windowMs hours) now l := rfl

/-- The rows that a charge was judged on hold the recent ones. -/
structure Judged (M : MathJs) (hours now : ℚ) (l rows : List WindowEntry) : Prop where
  recent : (SlidingWindow.recent WindowEntry.t (windowMs hours) now l).Sublist rows
  rows : ∀ r ∈ rows, TextRow M r
  texts : ∀ b ∈ l, IsText b.tick
  dated : ∀ b ∈ l, b.t ≤ now

theorem Judged.spending_le (h : Judged M hours now l rows) {x : ℚ}
    (hx : inWindow (windowMs hours) x now = true) (f : Option String) :
    spending M f (within WindowEntry.t (windowMs hours) x l) ≤ spending M f rows :=
  spending_mono h.rows ((SlidingWindow.within_sublist_recent hx l).trans h.recent)

/-- What was judged stays judged. -/
theorem Judged.mono {t : ℚ} (ht : t ≤ now) (h : Judged M hours t l rows) :
    Judged M hours now l rows := by
  refine ⟨(SlidingWindow.filter_sublist_filter fun a _ ha => ?_).trans h.recent, h.rows, h.texts,
    fun b hb => (h.dated b hb).trans ht⟩
  rw [decide_eq_true_iff] at ha ⊢
  linarith

/-- A charge that the policy judged on these rows keeps the limits. -/
theorem Limits.charge (h : Limits M policy hours l) (hj : Judged M hours r.t l rows)
    (he : ChargeJudged M policy (totals M rows) e) (hm : ChargeFits M rows e)
    (htick : r.tick = e.tick) (hamount : r.amount = e.amount) :
    Limits M policy hours (l ++ [r]) := by
  refine ⟨fun win q hwin hmax h0 x => ?_, fun x b hb hdef c hc => ?_⟩
  · refine SlidingWindow.length_within_snoc (fun y => h.count win q hwin hmax h0 y) ?_ x
    have hle := he.count win q hwin hmax
    have hcast : ((recent WindowEntry.t (windowMs hours) r.t l).length : ℚ) ≤
        ((totals M rows).count : ℚ) := by exact_mod_cast hj.recent.length_le
    linarith
  · by_cases hin : inWindow (windowMs hours) x r.t = true
    · have hsplit : within WindowEntry.t (windowMs hours) x (l ++ [r]) =
          within WindowEntry.t (windowMs hours) x l ++ [r] :=
        SlidingWindow.within_snoc_of_mem hin
      rw [hsplit] at hb ⊢
      rw [spending_append, spending_singleton, htick]
      have hcases : b ∈ within WindowEntry.t (windowMs hours) x l ∨ b = r := by simpa using hb
      by_cases hf : tickFold e.tick = tickFold b.tick
      · rw [if_pos hf]
        cases hd : isUndefined e.amount with
        | true =>
          -- an action without an amount spends nothing
          have hzero : amountOf M r = 0 := by simp [amountOf, hamount, hd]
          rcases hcases with hmem | rfl
          · rw [hzero, add_zero]
            exact h.spend x b hmem hdef c hc
          · rw [hamount, hd] at hdef
            cases hdef
        | false =>
          obtain ⟨a, ha, -⟩ := decimalText_of_isNonNegativeDecimal (he.canonical hd)
          have hv : M.value e.amount.toText = some a := by
            rw [M.value_decimal (he.canonical hd), ha]
          have hcap : windowCap M policy e.tick = some c := by
            rcases hcases with hmem | rfl
            · have htext := hj.texts b (List.mem_of_mem_filter hmem)
              rw [windowCap_congr (sameToken_of_tickFold he.tick htext hf) he.unambiguous, hc]
            · rwa [htick] at hc
          have hle := he.windowed a c hd hv hcap
          rw [spentBy_totals hj.rows hm.sums he.tick hm.nameable] at hle
          have hpart := hj.spending_le hin (tickFold e.tick)
          have hval : amountOf M r = a := amountOf_eq (by rw [hamount, hd]) (by rw [hamount, hv])
          rw [hval, ← hf]
          linarith
      · rcases hcases with hmem | rfl
        · rw [if_neg hf, add_zero]
          exact h.spend x b hmem hdef c hc
        · exact absurd (by rw [htick]) hf
    · have hsplit : within WindowEntry.t (windowMs hours) x (l ++ [r]) =
          within WindowEntry.t (windowMs hours) x l := SlidingWindow.within_snoc_of_notMem hin
      rw [hsplit] at hb ⊢
      exact h.spend x b hb hdef c hc

/-! ### An empty window -/

/-- Ten units of a token fit an empty window. -/
theorem chargeFits_ten {e : Evaluation} (htick : e.tick = .str "TOK")
    (hamount : e.amount.toText = "10") : ChargeFits plainMath [] e := by
  have hspent : spentBy plainMath (totals plainMath []) e.tick = [] := by rw [htick]; rfl
  refine ⟨⟨by simp [htick], by simp [htick, UNRESOLVED_TICK_BUCKET]⟩, fun key l hl => ?_,
    fun l hl => ?_, fun a ha => ?_⟩
  · rw [List.prefix_nil.1 hl]
    decide +kernel
  · rw [hspent] at hl
    rw [List.prefix_nil.1 hl]
    decide +kernel
  · have hten : plainMath.value "10" = some 10 := by decide +kernel
    rw [hamount, hten, Option.some.injEq] at ha
    rw [hspent, ← ha]
    decide +kernel

end XChainSdk
