import Mathlib.Algebra.BigOperators.Ring.List
import XChainSdk.Betting.PayoutProjection
import XChainSdk.Js.Precision
import XChainSdk.Lib.Checks
import XChainSdk.Lib.Loop

/-!
# When a projection is exact

* `PooledBet.fee`, `PooledBet.payout` : the fee and the payout as settlement computes them.
* `PooledBet.FewDigits` : sums and products of at most 64 digits.
* `PooledBet.ClearQuotient` : no multiple of the last decimal place just above the exact quotient.
* `projectPayout_exact_iff` : **of few digits, the projected fee and payout are exact if and only if
  the quotient is clear, and then a split of the winning pool pays out no more than was staked**;
  amounts of up to thirty-one digits meet both conditions.
-/

namespace XChainSdk

open Js

variable {M : MathJs}

/-! ### Cutting off decimals -/

/-- A number cut off after `d` decimals. -/
def floorTo (d : ℕ) (q : ℚ) : ℚ := ⌊q * 10 ^ d⌋ / 10 ^ d

/-- A multiple of the last of `d` decimal places lies above one of two numbers and not above the
other. -/
def Crossed (d : ℕ) (x y : ℚ) : Prop :=
  ∃ n : ℤ, (x < n / 10 ^ d ∧ n / 10 ^ d ≤ y) ∨ (y < n / 10 ^ d ∧ n / 10 ^ d ≤ x)

section Floor

variable {d : ℕ} {x y : ℚ}

theorem floorTo_le (d : ℕ) (x : ℚ) : floorTo d x ≤ x := by
  rw [floorTo, div_le_iff₀ (by positivity)]
  exact Int.floor_le _

theorem floorTo_nonneg (h : 0 ≤ x) : 0 ≤ floorTo d x := by
  have hfloor : 0 ≤ ⌊x * 10 ^ d⌋ := Int.floor_nonneg.2 (by positivity)
  exact div_nonneg (by exact_mod_cast hfloor) (by positivity)

theorem floorTo_eq_iff : floorTo d x = floorTo d y ↔ ⌊x * 10 ^ d⌋ = ⌊y * 10 ^ d⌋ := by
  rw [floorTo, floorTo, div_left_inj' (by positivity), Int.cast_inj]

theorem le_floorTo_iff {n : ℤ} : (n : ℚ) / 10 ^ d ≤ x ↔ n ≤ ⌊x * 10 ^ d⌋ := by
  rw [Int.le_floor, div_le_iff₀ (by positivity)]

theorem not_crossed_iff : ¬Crossed d x y ↔ floorTo d x = floorTo d y := by
  rw [floorTo_eq_iff]
  constructor
  · intro h
    rcases lt_trichotomy ⌊x * 10 ^ d⌋ ⌊y * 10 ^ d⌋ with hlt | heq | hlt
    · refine absurd ⟨⌊y * 10 ^ d⌋, .inl ⟨?_, le_floorTo_iff.2 le_rfl⟩⟩ h
      exact lt_of_not_ge fun hle => absurd (le_floorTo_iff.1 hle) (by omega)
    · exact heq
    · refine absurd ⟨⌊x * 10 ^ d⌋, .inr ⟨?_, le_floorTo_iff.2 le_rfl⟩⟩ h
      exact lt_of_not_ge fun hle => absurd (le_floorTo_iff.1 hle) (by omega)
  · rintro heq ⟨n, ⟨hlt, hle⟩ | ⟨hlt, hle⟩⟩
    · exact absurd (le_floorTo_iff.2 (heq ▸ le_floorTo_iff.1 hle)) (not_le.2 hlt)
    · exact absurd (le_floorTo_iff.2 (heq.symm ▸ le_floorTo_iff.1 hle)) (not_le.2 hlt)

/-- What `floorAt` makes of a number of 64 digits. -/
theorem floorAt_of_fits (hx : FitsSig BIGNUMBER_PRECISION x) :
    floorAt d (.fin x) = .fin (floorTo d x) := by
  have hscaled : FitsSig BIGNUMBER_PRECISION (x * 10 ^ d) := by
    have h := hx.mul_zpow (by decide) d
    rwa [zpow_natCast] at h
  have hfloor : FitsSig BIGNUMBER_PRECISION (⌊x * 10 ^ d⌋ / 10 ^ d : ℚ) := by
    have h := (hscaled.floor (by decide)).mul_zpow (by decide) (-d)
    rwa [zpow_neg, zpow_natCast, ← div_eq_mul_inv] at h
  have hten : (10 : ℚ) ^ d ≠ 0 := by positivity
  rw [floorAt, JsNum.times, roundSig_of_fits hscaled, JsNum.floor, JsNum.dividedBy, if_neg hten,
    roundSig_of_fits hfloor, floorTo]

/-- The text of a number that is cut off reads as it. -/
theorem value_toFixedAt_floorTo (h : 0 ≤ x) :
    M.value (toFixedAt d (.fin (floorTo d x))) = some (floorTo d x) := by
  obtain ⟨hplain, hvalue⟩ := toFixedAt_spec d (floorTo_nonneg (d := d) h)
  have hten : (10 : ℚ) ^ d ≠ 0 := by positivity
  have hfloor : 0 ≤ ⌊x * 10 ^ d⌋ := Int.floor_nonneg.2 (by positivity)
  have hunits : (fixedUnits d (floorTo d x) : ℤ) = ⌊x * 10 ^ d⌋ := by
    rw [fixedUnits, abs_of_nonneg (floorTo_nonneg h), floorTo, div_mul_cancel₀ _ hten,
      Int.floor_intCast_add]
    have hhalf : ⌊(1 / 2 : ℚ)⌋ = 0 := by norm_num
    rw [hhalf, add_zero, Int.toNat_of_nonneg hfloor]
  have hcast : (fixedUnits d (floorTo d x) : ℚ) = ⌊x * 10 ^ d⌋ := by exact_mod_cast hunits
  rw [M.value_decimal hplain, hvalue, hcast, floorTo]

end Floor

/-! ### What settlement computes -/

namespace PooledBet

variable (b : PooledBet)

/-- What is staked, with this bet. -/
def total : ℚ := b.pools.sum + b.stake

/-- The pool that is bet on, with this bet. -/
def winning : ℚ := b.pools.get ⟨b.index, b.index_lt⟩ + b.stake

def fee : ℚ := floorTo b.decimals (b.total * b.feePct / 100)

/-- What the payout is cut off from. -/
def quotient : ℚ := b.stake * (b.total - b.fee) / b.winning

def payout : ℚ := floorTo b.decimals b.quotient

/-! #### The condition -/

/-- The sums, the difference and the products of a projection have at most 64 digits, and the total
is below `10 ^ 64` of the last decimal place. -/
structure FewDigits : Prop where
  sums : ∀ ps, ps <+: b.pools → FitsSig BIGNUMBER_PRECISION ps.sum
  total : FitsSig BIGNUMBER_PRECISION b.total
  winning : FitsSig BIGNUMBER_PRECISION b.winning
  pot : FitsSig BIGNUMBER_PRECISION (b.total - b.fee)
  feeProduct : FitsSig BIGNUMBER_PRECISION (b.total * b.feePct)
  product : FitsSig BIGNUMBER_PRECISION (b.stake * (b.total - b.fee))
  units : b.total * 10 ^ b.decimals < 10 ^ 64

/-- A multiple of the last decimal place above the quotient is further off than half a unit of the
64th digit of the quotient. -/
def ClearQuotient : Prop := ∀ n : ℤ, b.quotient < n / 10 ^ b.decimals →
  b.quotient + sigUnit BIGNUMBER_PRECISION b.quotient / 2 < n / 10 ^ b.decimals

/-! #### What the code rounds -/

/-- The number rounded to the digits of a big decimal. -/
def sig (q : ℚ) : ℚ := roundSig BIGNUMBER_PRECISION q

def roundedTotal : ℚ := sig (b.pools.foldl (fun sum p => sig (sum + p)) 0 + b.stake)

def roundedWinning : ℚ := sig (b.pools.get ⟨b.index, b.index_lt⟩ + b.stake)

/-- The number that is cut off for the fee. -/
def roundedFee : ℚ := sig (sig (b.roundedTotal * b.feePct) / 100)

/-- The number that is cut off for the payout, behind a fee. -/
def roundedPayout (fee : ℚ) : ℚ :=
  sig (sig (b.stake * sig (b.roundedTotal - fee)) / b.roundedWinning)

/-- Rounding to the digits of a big decimal moves neither the fee nor the payout over a multiple of
the last decimal place. -/
def NoUnitCrossed : Prop :=
  ¬Crossed b.decimals (b.total * b.feePct / 100) b.roundedFee ∧
    ¬Crossed b.decimals b.quotient (b.roundedPayout b.fee)

variable {b}

theorem pool_nonneg : 0 ≤ b.pools.get ⟨b.index, b.index_lt⟩ :=
  b.pools_nonneg _ (List.get_mem _ _)

theorem winning_pos : 0 < b.winning := add_pos_of_nonneg_of_pos pool_nonneg b.stake_pos

theorem total_nonneg : 0 ≤ b.total := add_nonneg (List.sum_nonneg b.pools_nonneg) b.stake_pos.le

theorem fee_le_total : b.fee ≤ b.total := by
  refine (floorTo_le _ _).trans ?_
  rw [div_le_iff₀ (by norm_num)]
  exact mul_le_mul_of_nonneg_left b.feePct_le total_nonneg

theorem fits_sig (q : ℚ) : FitsSig BIGNUMBER_PRECISION (sig q) := fitsSig_roundSig (by decide) q

theorem sig_nonneg {q : ℚ} (h : 0 ≤ q) : 0 ≤ sig q := roundSig_nonneg h

theorem sig_pos {q : ℚ} (h : 0 < q) : 0 < sig q := by
  -- the leading digit is kept
  have hone : FitsSig BIGNUMBER_PRECISION ((10 : ℚ) ^ Int.log 10 q) :=
    (fitsSig_iff (by decide)).2 ⟨1, Int.log 10 q, by decide, by simp⟩
  have hle : ((10 : ℕ) : ℚ) ^ Int.log 10 q ≤ q := Int.zpow_log_le_self (by decide) h
  have hpos : (0 : ℚ) < 10 ^ Int.log 10 q := zpow_pos (by norm_num) _
  exact hpos.trans_le (le_roundSig_of_fits (by decide) hpos.le (by exact_mod_cast hle) hone)

theorem roundedTotal_nonneg : 0 ≤ b.roundedTotal := by
  have hfold : 0 ≤ b.pools.foldl (fun sum p => sig (sum + p)) 0 :=
    b.pools.foldlRecOn _ le_rfl fun sum hsum p hp => sig_nonneg (add_nonneg hsum (b.pools_nonneg p hp))
  exact sig_nonneg (add_nonneg hfold b.stake_pos.le)

theorem roundedFee_nonneg : 0 ≤ b.roundedFee :=
  sig_nonneg (div_nonneg (sig_nonneg (mul_nonneg roundedTotal_nonneg b.feePct_nonneg)) (by norm_num))

/-- The fee takes no more than everything, rounded or not. -/
theorem roundedFee_le_roundedTotal : b.roundedFee ≤ b.roundedTotal := by
  have hfits : FitsSig BIGNUMBER_PRECISION b.roundedTotal := fits_sig _
  have hhundred : FitsSig BIGNUMBER_PRECISION (b.roundedTotal * 100) := by
    have h := hfits.mul_zpow (by decide) 2
    norm_num at h
    exact h
  have hproduct : sig (b.roundedTotal * b.feePct) ≤ b.roundedTotal * 100 :=
    roundSig_le_of_fits (by decide) (mul_nonneg roundedTotal_nonneg b.feePct_nonneg)
      (mul_le_mul_of_nonneg_left b.feePct_le roundedTotal_nonneg) hhundred
  refine roundSig_le_of_fits (by decide) ?_ ?_ hfits
  · exact div_nonneg (sig_nonneg (mul_nonneg roundedTotal_nonneg b.feePct_nonneg)) (by norm_num)
  · rw [div_le_iff₀ (by norm_num)]
    exact hproduct

theorem roundedPayout_nonneg {fee : ℚ} (h : fee ≤ b.roundedTotal) : 0 ≤ b.roundedPayout fee := by
  have hwinning : 0 < b.roundedWinning := sig_pos winning_pos
  have hpot : 0 ≤ sig (b.roundedTotal - fee) := sig_nonneg (sub_nonneg.2 h)
  exact sig_nonneg (div_nonneg (sig_nonneg (mul_nonneg b.stake_pos.le hpot)) hwinning.le)

end PooledBet

/-! ### What is projected -/

section Projection

variable {args : ProjectionArgs} {b : PooledBet}

theorem natBelow_natCast {n bound : ℕ} (h : n < bound) :
    (JsNum.fin (n : ℚ)).natBelow bound = some n := by
  have hall : ((n : ℚ).den = 1 ∧ 0 ≤ (n : ℚ) ∧ (n : ℚ) < bound) :=
    ⟨Rat.den_natCast n, n.cast_nonneg, by exact_mod_cast h⟩
  rw [JsNum.natBelow, if_pos hall, Rat.num_natCast, Int.toNat_natCast]

theorem sumPools_spec {values : List Js} {pools : List ℚ}
    (h : List.Forall₂ (fun v q => bigAmount M v = .ok (.fin q)) values pools) (start : ℚ) :
    values.foldlM (fun (sum : JsNum) p => do return sum.plus (← bigAmount M p)) (.fin start) =
      .ok (.fin (pools.foldl (fun sum p => PooledBet.sig (sum + p)) start)) := by
  induction h generalizing start with
  | nil => rfl
  | cons hvalue _ ih =>
    rw [List.foldlM_cons, hvalue]
    exact ih _

/-- The texts of a bet's projection. -/
def PooledBet.projection (b : PooledBet) : Projection :=
  let fee := floorTo b.decimals b.roundedFee
  let payout := floorTo b.decimals (b.roundedPayout fee)
  { payout := toFixedAt b.decimals (.fin payout)
    profit := toFixedAt b.decimals ((JsNum.fin payout).minus (.fin b.stake))
    impliedOdds := toFixedAt 8 ((JsNum.fin payout).dividedBy (.fin b.stake))
    total := toFixedAt b.decimals (.fin b.roundedTotal)
    winningPool := toFixedAt b.decimals (.fin b.roundedWinning)
    fee := toFixedAt b.decimals (.fin fee) }

/-- What is projected of a bet. -/
theorem projectPayout_spec (h : args.Reads M b) :
    projectPayout M args = .ok (some b.projection) := by
  obtain ⟨values, hvalues, hpools⟩ := h.pools
  have hlength : values.length = b.pools.length := hpools.length_eq
  have hlt : b.index < values.length := hlength ▸ b.index_lt
  have hindex : args.outcome.toNumber.natBelow values.length = some b.index := by
    rw [h.outcome]
    exact natBelow_natCast hlt
  have hdecimals : (ProjectionArgs.withDefault args.decimals (.num (.fin 8))).toNumber.natBelow 19 =
      some b.decimals := by
    rw [h.decimals]
    exact natBelow_natCast (Nat.lt_succ_of_le b.decimals_le)
  have hsum : sumPools M values =
      .ok (.fin (b.pools.foldl (fun sum p => PooledBet.sig (sum + p)) 0)) := sumPools_spec hpools 0
  have hpool : bigAmount M (values.getD b.index .undefined) =
      .ok (.fin (b.pools.get ⟨b.index, b.index_lt⟩)) := by
    rw [List.getD_eq_getElem?_getD, List.getElem?_eq_getElem hlt]
    exact (List.forall₂_iff_get.1 hpools).2 b.index hlt b.index_lt
  have hstake : (JsNum.fin 0).lt (.fin b.stake) = true := decide_eq_true b.stake_pos
  have hpos : 0 < b.roundedWinning := PooledBet.sig_pos PooledBet.winning_pos
  have hwinning : (JsNum.fin 0).lt (.fin b.roundedWinning) = true := decide_eq_true hpos
  have hhundred : (100 : ℚ) ≠ 0 := by norm_num
  have htotal : (JsNum.fin (b.pools.foldl (fun sum p => PooledBet.sig (sum + p)) 0)).plus
      (.fin b.stake) = .fin b.roundedTotal := rfl
  have hpooled : (JsNum.fin (b.pools.get ⟨b.index, b.index_lt⟩)).plus (.fin b.stake) =
      .fin b.roundedWinning := rfl
  -- the numbers that are cut off have 64 digits
  have hfee : floorAt b.decimals (((JsNum.fin b.roundedTotal).times (.fin b.feePct)).dividedBy
      (.fin 100)) = .fin (floorTo b.decimals b.roundedFee) := by
    rw [JsNum.times, JsNum.dividedBy, if_neg hhundred]
    exact floorAt_of_fits (PooledBet.fits_sig _)
  have hpayout : floorAt b.decimals (((JsNum.fin b.stake).times ((JsNum.fin b.roundedTotal).minus
      (.fin (floorTo b.decimals b.roundedFee)))).dividedBy (.fin b.roundedWinning)) =
      .fin (floorTo b.decimals (b.roundedPayout (floorTo b.decimals b.roundedFee))) := by
    rw [JsNum.minus, JsNum.plus, ← sub_eq_add_neg, JsNum.times, JsNum.dividedBy, if_neg hpos.ne']
    exact floorAt_of_fits (PooledBet.fits_sig _)
  rw [projectPayout, hvalues]
  simp only [hindex, hdecimals, h.stake, h.feePct, hsum, hpool, hstake, hwinning, htotal, hpooled,
    hfee, hpayout, bind, Except.bind, pure, Except.pure, Bool.not_true, Bool.false_eq_true, if_false]
  rfl

/-- The projection is exact: fee and payout read as settlement computes them. -/
def ProjectionArgs.Exact (M : MathJs) (args : ProjectionArgs) (b : PooledBet) : Prop :=
  ∃ r, projectPayout M args = .ok (some r) ∧ M.value r.fee = some b.fee ∧
    M.value r.payout = some b.payout

theorem exact_iff_noUnitCrossed (h : args.Reads M b) : args.Exact M b ↔ b.NoUnitCrossed := by
  have hfeeText : M.value b.projection.fee = some (floorTo b.decimals b.roundedFee) :=
    value_toFixedAt_floorTo PooledBet.roundedFee_nonneg
  have hle : floorTo b.decimals b.roundedFee ≤ b.roundedTotal :=
    (floorTo_le _ _).trans PooledBet.roundedFee_le_roundedTotal
  have hpayoutText : M.value b.projection.payout =
      some (floorTo b.decimals (b.roundedPayout (floorTo b.decimals b.roundedFee))) :=
    value_toFixedAt_floorTo (PooledBet.roundedPayout_nonneg hle)
  rw [PooledBet.NoUnitCrossed, not_crossed_iff, not_crossed_iff]
  change _ ↔ b.fee = _ ∧ b.payout = _
  constructor
  · rintro ⟨r, hr, hfee, hpayout⟩
    rw [projectPayout_spec h] at hr
    cases hr
    rw [hfeeText] at hfee
    have hfee' := Option.some.inj hfee
    rw [hpayoutText, hfee'] at hpayout
    exact ⟨hfee'.symm, (Option.some.inj hpayout).symm⟩
  · rintro ⟨hfee, hpayout⟩
    refine ⟨b.projection, projectPayout_spec h, ?_, ?_⟩
    · rw [hfeeText, hfee]
    · rw [hpayoutText, ← hfee, hpayout]

end Projection

/-! ### A split of the winning pool -/

/-- The pools with the bet counted in. -/
def PooledBet.settled (b : PooledBet) : List ℚ := b.pools.set b.index b.winning

/-- The bets share out one pool of a market: with each of them counted in the pools are the same, and
the stakes make up the pool. -/
structure Split (pools : List ℚ) (index : ℕ) (bets : List PooledBet) : Prop where
  settled : ∀ b ∈ bets, b.index = index ∧ b.settled = pools
  terms : ∀ b ∈ bets, ∀ c ∈ bets, b.feePct = c.feePct ∧ b.decimals = c.decimals
  stakes : (bets.map PooledBet.stake).sum = pools.getD index 0

/-- The payouts that are projected, with the fee of any of the projections, are no more than was
staked. -/
def PayoutsConserve (M : MathJs) (args : List ProjectionArgs) (total : ℚ) : Prop :=
  ∀ rs payouts, List.Forall₂ (fun a r => projectPayout M a = .ok (some r)) args rs →
    List.Forall₂ (fun (r : Projection) q => M.value r.payout = some q) rs payouts →
      ∀ r ∈ rs, ∀ fee, M.value r.fee = some fee → payouts.sum + fee ≤ total

section Split

variable {pools : List ℚ} {index : ℕ} {bets : List PooledBet} {b c : PooledBet}

theorem PooledBet.sum_settled (b : PooledBet) : b.settled.sum = b.total := by
  have hpool : b.pools.sum = (b.pools.take b.index).sum + b.pools.get ⟨b.index, b.index_lt⟩ +
      (b.pools.drop (b.index + 1)).sum := by
    conv_lhs => rw [← List.take_append_drop b.index b.pools, List.sum_append,
      List.drop_eq_getElem_cons b.index_lt, List.sum_cons]
    rw [add_assoc]
    rfl
  rw [settled, List.sum_set, if_pos b.index_lt, total, hpool, winning]
  ring

theorem PooledBet.getD_settled (b : PooledBet) : b.settled.getD b.index 0 = b.winning := by
  rw [settled, List.getD_eq_getElem?_getD, List.getElem?_set_self b.index_lt, Option.getD_some]

/-- The bets of a split have one fee, one total and one winning pool. -/
theorem Split.same (h : Split pools index bets) (hb : b ∈ bets) (hc : c ∈ bets) :
    b.total = c.total ∧ b.winning = c.winning ∧ b.fee = c.fee := by
  obtain ⟨hbi, hbp⟩ := h.settled b hb
  obtain ⟨hci, hcp⟩ := h.settled c hc
  have htotal : b.total = c.total := by
    rw [← b.sum_settled, ← c.sum_settled, hbp, hcp]
  have hwinning : b.winning = c.winning := by
    rw [← b.getD_settled, ← c.getD_settled, hbp, hcp, hbi, hci]
  obtain ⟨hfee, hdecimals⟩ := h.terms b hb c hc
  exact ⟨htotal, hwinning, by rw [PooledBet.fee, PooledBet.fee, htotal, hfee, hdecimals]⟩

/-- **Exact payouts of a split, with the fee, are no more than was staked.** -/
theorem Split.payouts_le (h : Split pools index bets) (hb : b ∈ bets) :
    (bets.map PooledBet.payout).sum + b.fee ≤ b.total := by
  have hle : (bets.map PooledBet.payout).sum ≤
      (bets.map fun c => c.stake * ((b.total - b.fee) / b.winning)).sum := by
    refine List.sum_le_sum fun c hc => ?_
    obtain ⟨htotal, hwinning, hfee⟩ := h.same hc hb
    rw [PooledBet.payout, PooledBet.quotient, htotal, hwinning, hfee, ← mul_div_assoc]
    exact floorTo_le _ _
  have hstakes : (bets.map PooledBet.stake).sum = b.winning := by
    obtain ⟨hi, hp⟩ := h.settled b hb
    rw [h.stakes, ← hp, ← hi, b.getD_settled]
  rw [List.sum_map_mul_right, hstakes, mul_div_cancel₀ _ PooledBet.winning_pos.ne'] at hle
  linarith

/-- What exact projections read as. -/
theorem payouts_of_exact {args : List ProjectionArgs} {rs : List Projection} {payouts : List ℚ}
    (h : List.Forall₂ (ProjectionArgs.Exact M) args bets)
    (hrs : List.Forall₂ (fun a r => projectPayout M a = .ok (some r)) args rs)
    (hpayouts : List.Forall₂ (fun (r : Projection) q => M.value r.payout = some q) rs payouts) :
    payouts = bets.map PooledBet.payout ∧ ∀ r ∈ rs, ∃ b ∈ bets, M.value r.fee = some b.fee := by
  induction h generalizing rs payouts with
  | nil =>
    cases hrs
    cases hpayouts
    exact ⟨rfl, fun r hr => by cases hr⟩
  | cons hexact _ ih =>
    cases hrs with
    | cons hr hrs =>
      cases hpayouts with
      | cons hq hqs =>
        obtain ⟨r', hr', hfee, hpayout⟩ := hexact
        rw [hr] at hr'
        cases hr'
        rw [hq] at hpayout
        obtain ⟨rfl, hfees⟩ := ih hrs hqs
        refine ⟨by rw [List.map_cons, Option.some.inj hpayout], fun r hmem => ?_⟩
        rcases List.mem_cons.1 hmem with rfl | hmem
        · exact ⟨_, List.mem_cons_self, hfee⟩
        · obtain ⟨b, hb, hvalue⟩ := hfees r hmem
          exact ⟨b, List.mem_cons_of_mem _ hb, hvalue⟩

end Split

/-! ### Small amounts -/

/-- A whole number of the units of `d` decimals. -/
def InUnits (d : ℕ) (q : ℚ) : Prop := ∃ n : ℕ, q = n / 10 ^ d

section Small

variable {d n w : ℕ} {q : ℚ}

theorem fitsSig_units (h : n ≤ 10 ^ 64) : FitsSig BIGNUMBER_PRECISION ((n : ℚ) / 10 ^ d) := by
  refine (fitsSig_iff (by decide)).2 ⟨n, -d, ?_, ?_⟩
  · rw [Nat.abs_cast]
    exact_mod_cast h
  · rw [zpow_neg, zpow_natCast, div_eq_mul_inv, Int.cast_natCast]

theorem InUnits.add {p : ℚ} (hp : InUnits d p) (hq : InUnits d q) : InUnits d (p + q) := by
  obtain ⟨m, rfl⟩ := hp
  obtain ⟨n, rfl⟩ := hq
  exact ⟨m + n, by push_cast; ring⟩

theorem inUnits_sum {l : List ℚ} (h : ∀ p ∈ l, InUnits d p) : InUnits d l.sum := by
  induction l with
  | nil => exact ⟨0, by simp⟩
  | cons p l ih =>
    rw [List.sum_cons]
    exact (h p List.mem_cons_self).add (ih fun p hp => h p (List.mem_cons_of_mem _ hp))

theorem inUnits_floorTo {x : ℚ} (h : 0 ≤ x) : InUnits d (floorTo d x) := by
  have hfloor : 0 ≤ ⌊x * 10 ^ d⌋ := Int.floor_nonneg.2 (by positivity)
  refine ⟨⌊x * 10 ^ d⌋.toNat, ?_⟩
  have hcast : ((⌊x * 10 ^ d⌋.toNat : ℤ) : ℚ) = ⌊x * 10 ^ d⌋ := by rw [Int.toNat_of_nonneg hfloor]
  rw [floorTo, ← hcast, Int.cast_natCast]

/-- Sums of few digits are not rounded. -/
theorem foldl_sig {l : List ℚ} {s : ℚ}
    (h : ∀ ps, ps <+: l → FitsSig BIGNUMBER_PRECISION (s + ps.sum)) :
    l.foldl (fun sum p => PooledBet.sig (sum + p)) s = s + l.sum := by
  induction l generalizing s with
  | nil => simp
  | cons p l ih =>
    have hfirst : FitsSig BIGNUMBER_PRECISION (s + p) := by
      simpa using h [p] ⟨l, rfl⟩
    have hsig : PooledBet.sig (s + p) = s + p := roundSig_of_fits hfirst
    rw [List.foldl_cons, hsig, List.sum_cons, ← add_assoc]
    refine ih fun ps hps => ?_
    have hlonger := h (p :: ps) (List.cons_prefix_cons.2 ⟨rfl, hps⟩)
    rwa [List.sum_cons, ← add_assoc] at hlonger

/-- A multiple of the last decimal place is a whole number of units of the 64th digit. -/
theorem exists_mul_sigUnit (hd : d ≤ 18) (h0 : 0 ≤ q) (hq : q * 10 ^ d < 10 ^ 64) (n : ℤ) :
    ∃ m : ℤ, (n : ℚ) / 10 ^ d = m * sigUnit BIGNUMBER_PRECISION q := by
  obtain ⟨k, hk⟩ : ∃ k : ℕ, (10 : ℚ) ^ (-d : ℤ) = 10 ^ k * sigUnit BIGNUMBER_PRECISION q := by
    rcases h0.eq_or_lt with rfl | hpos
    · refine ⟨63 - d, ?_⟩
      have hunit : sigUnit BIGNUMBER_PRECISION 0 = (10 : ℚ) ^ (-63 : ℤ) := by decide +kernel
      rw [hunit, ← zpow_natCast, ← zpow_add₀ (by norm_num)]
      congr 1
      omega
    · refine sigUnit_le hpos.ne' ?_
      rw [abs_of_pos hpos, zpow_neg, zpow_natCast, ← div_eq_mul_inv, lt_div_iff₀ (by positivity)]
      exact hq
  refine ⟨n * 10 ^ k, ?_⟩
  rw [div_eq_mul_inv, ← zpow_natCast, ← zpow_neg, hk]
  push_cast
  ring

/-- **Rounding goes over a multiple of the last decimal place** if and only if one lies above by half
a unit of the 64th digit at most. -/
theorem crossed_sig_iff (h0 : 0 ≤ q) (hd : d ≤ 18) (hq : q * 10 ^ d < 10 ^ 64) :
    Crossed d q (PooledBet.sig q) ↔ ∃ n : ℤ, q < n / 10 ^ d ∧
      n / 10 ^ d ≤ q + sigUnit BIGNUMBER_PRECISION q / 2 := by
  have hten : (0 : ℚ) < 10 ^ d := by positivity
  constructor
  · rintro ⟨n, ⟨hlt, hle⟩ | ⟨hlt, hle⟩⟩
    · exact ⟨n, hlt, hle.trans (roundSig_le_add h0)⟩
    · -- rounding down stops at the multiple
      refine absurd hlt (not_lt.2 ?_)
      rcases lt_or_ge n 0 with hneg | hn
      · have hnq : (n : ℚ) < 0 := by exact_mod_cast hneg
        exact (div_neg_of_neg_of_pos hnq hten).le.trans (PooledBet.sig_nonneg h0)
      · obtain ⟨k, rfl⟩ := Int.eq_ofNat_of_zero_le hn
        have hk : (k : ℚ) ≤ 10 ^ 64 := by
          have hmul := (div_le_iff₀ hten).1 hle
          push_cast at hmul
          exact hmul.trans hq.le
        refine le_roundSig_of_fits (by decide) (by positivity) hle ?_
        rw [Int.cast_natCast]
        exact fitsSig_units (by exact_mod_cast hk)
  · rintro ⟨n, hlt, hle⟩
    refine ⟨n, .inl ⟨hlt, ?_⟩⟩
    obtain ⟨m, hm⟩ := exists_mul_sigUnit hd h0 hq n
    have hunit := sigUnit_pos BIGNUMBER_PRECISION q
    have hfloor : m ≤ ⌊q / sigUnit BIGNUMBER_PRECISION q + 1 / 2⌋ := by
      refine Int.le_floor.2 ?_
      rw [hm] at hle
      have hdiv := div_le_div_of_nonneg_right hle hunit.le
      rwa [mul_div_cancel_right₀ _ hunit.ne', add_div, div_right_comm (sigUnit _ q),
        div_self hunit.ne'] at hdiv
    rw [hm, PooledBet.sig, roundSig_of_nonneg h0]
    exact mul_le_mul_of_nonneg_right (by exact_mod_cast hfloor) hunit.le

/-- A quotient whose dividend is well below 64 digits stays clear of the next unit. -/
theorem add_half_lt_of_lt (hw : 0 < w) (hwd : w * 10 ^ d < 10 ^ 63) (hn : 5 * n < 10 ^ 64) {m : ℤ}
    (hm : (n : ℚ) / w / 10 ^ d < m / 10 ^ d) :
    (n : ℚ) / w / 10 ^ d + sigUnit BIGNUMBER_PRECISION ((n : ℚ) / w / 10 ^ d) / 2 < m / 10 ^ d := by
  have hten : (0 : ℚ) < 10 ^ d := by positivity
  have hwq : (0 : ℚ) < w := by exact_mod_cast hw
  rw [div_lt_div_iff_of_pos_right hten] at hm
  -- the quotient is a whole number of `w`-ths below the unit
  have hgap : (n : ℚ) / w + 1 / w ≤ m := by
    rw [div_lt_iff₀ hwq] at hm
    have hint : (n : ℤ) + 1 ≤ m * w := Int.add_one_le_iff.2 (by exact_mod_cast hm)
    rw [← add_div, div_le_iff₀ hwq]
    exact_mod_cast hint
  suffices hhalf : sigUnit BIGNUMBER_PRECISION ((n : ℚ) / w / 10 ^ d) / 2 < 1 / w / 10 ^ d by
    calc (n : ℚ) / w / 10 ^ d + sigUnit BIGNUMBER_PRECISION ((n : ℚ) / w / 10 ^ d) / 2
        < n / w / 10 ^ d + 1 / w / 10 ^ d := by linarith
      _ = (n / w + 1 / w) / 10 ^ d := (add_div _ _ _).symm
      _ ≤ m / 10 ^ d := div_le_div_of_nonneg_right hgap hten.le
  rw [div_div, div_div, lt_div_iff₀ (by positivity)]
  rcases Nat.eq_zero_or_pos n with rfl | hnpos
  · have hunit : sigUnit BIGNUMBER_PRECISION ((0 : ℕ) / (w * 10 ^ d) : ℚ) = 1 / 10 ^ 63 := by
      rw [Nat.cast_zero, zero_div]
      decide +kernel
    have hq : (w * 10 ^ d : ℚ) < 10 ^ 63 := by exact_mod_cast hwd
    rw [hunit]
    linarith
  · have hunit := sigUnit_le_div (p := BIGNUMBER_PRECISION) (q := (n : ℚ) / (w * 10 ^ d))
      (by positivity)
    have hq : (5 * n : ℚ) < 10 ^ 64 := by exact_mod_cast hn
    calc sigUnit BIGNUMBER_PRECISION ((n : ℚ) / (w * 10 ^ d)) / 2 * (w * 10 ^ d)
        ≤ n / (w * 10 ^ d) * 10 / 10 ^ 64 / 2 * (w * 10 ^ d) := by
          refine mul_le_mul_of_nonneg_right ?_ (by positivity)
          exact div_le_div_of_nonneg_right hunit (by norm_num)
      _ = 5 * n / 10 ^ 64 := by
          field_simp
          norm_num
      _ < 1 := (div_lt_one (by norm_num)).2 hq

end Small

namespace PooledBet

section FewDigits

variable {b : PooledBet}

theorem sum_le_total {ps : List ℚ} (h : ps <+: b.pools) : ps.sum ≤ b.total := by
  obtain ⟨rest, hrest⟩ := h
  have hnonneg : 0 ≤ rest.sum := List.sum_nonneg fun p hp =>
    b.pools_nonneg p (hrest ▸ List.mem_append_right ps hp)
  have hsum : b.pools.sum = ps.sum + rest.sum := by rw [← hrest, List.sum_append]
  have hstake := b.stake_pos
  rw [total, hsum]
  linarith

theorem quotient_nonneg : 0 ≤ b.quotient :=
  div_nonneg (mul_nonneg b.stake_pos.le (sub_nonneg.2 fee_le_total)) winning_pos.le

/-- A winner gets no more than everything. -/
theorem quotient_le_total : b.quotient ≤ b.total := by
  have hfee : 0 ≤ b.fee :=
    floorTo_nonneg (div_nonneg (mul_nonneg total_nonneg b.feePct_nonneg) (by norm_num))
  have hstake : b.stake ≤ b.winning := le_add_of_nonneg_left pool_nonneg
  rw [quotient, div_le_iff₀ winning_pos, mul_comm b.total]
  exact mul_le_mul hstake (by linarith) (sub_nonneg.2 fee_le_total) winning_pos.le

namespace FewDigits

variable (h : b.FewDigits)

include h

theorem roundedTotal_eq : b.roundedTotal = b.total := by
  have hfold := foldl_sig (s := 0) (l := b.pools) fun ps hps => by
    rw [zero_add]
    exact h.sums ps hps
  rw [roundedTotal, hfold, zero_add]
  exact roundSig_of_fits h.total

theorem roundedFee_eq : b.roundedFee = b.total * b.feePct / 100 := by
  have hfee : FitsSig BIGNUMBER_PRECISION (b.total * b.feePct / 100) := by
    have hpoint := h.feeProduct.mul_zpow (by decide) (-2)
    rwa [zpow_neg, ← div_eq_mul_inv] at hpoint
  have hproduct : sig (b.total * b.feePct) = b.total * b.feePct := roundSig_of_fits h.feeProduct
  rw [roundedFee, h.roundedTotal_eq, hproduct]
  exact roundSig_of_fits hfee

theorem roundedPayout_eq : b.roundedPayout b.fee = sig b.quotient := by
  have hwinning : b.roundedWinning = b.winning := roundSig_of_fits h.winning
  have hpot : sig (b.total - b.fee) = b.total - b.fee := roundSig_of_fits h.pot
  have hproduct : sig (b.stake * (b.total - b.fee)) = b.stake * (b.total - b.fee) :=
    roundSig_of_fits h.product
  rw [roundedPayout, h.roundedTotal_eq, hwinning, hpot, hproduct, quotient]

/-- Of few digits, only the quotient is rounded. -/
theorem noUnitCrossed_iff : b.NoUnitCrossed ↔ b.ClearQuotient := by
  have hunits : b.quotient * 10 ^ b.decimals < 10 ^ 64 :=
    (mul_le_mul_of_nonneg_right quotient_le_total (by positivity)).trans_lt h.units
  have hfee : ¬Crossed b.decimals (b.total * b.feePct / 100) b.roundedFee := by
    rw [h.roundedFee_eq]
    exact not_crossed_iff.2 rfl
  rw [NoUnitCrossed, h.roundedPayout_eq, crossed_sig_iff quotient_nonneg b.decimals_le hunits,
    ClearQuotient]
  push Not
  exact ⟨fun hclear => hclear.2, fun hclear => ⟨hfee, hclear⟩⟩

end FewDigits

end FewDigits

/-- The numbers of a bet in units. -/
structure Units (b : PooledBet) (t w s f : ℕ) : Prop where
  pools : ∀ p ∈ b.pools, InUnits b.decimals p
  total : b.total = t / 10 ^ b.decimals
  winning : b.winning = w / 10 ^ b.decimals
  stake : b.stake = s / 10 ^ b.decimals
  feePct : b.feePct = f / 10 ^ 2

section Units

variable {b : PooledBet} {t w s f : ℕ}

theorem exists_units (hpools : ∀ p ∈ b.pools, InUnits b.decimals p)
    (hstake : InUnits b.decimals b.stake) (hpct : InUnits 2 b.feePct) :
    ∃ t w s f, b.Units t w s f := by
  obtain ⟨t, ht⟩ := (inUnits_sum hpools).add hstake
  obtain ⟨w, hw⟩ := (hpools _ (List.get_mem b.pools ⟨b.index, b.index_lt⟩)).add hstake
  obtain ⟨s, hs⟩ := hstake
  obtain ⟨f, hf⟩ := hpct
  exact ⟨t, w, s, f, hpools, ht, hw, hs, hf⟩

namespace Units

variable (h : b.Units t w s f)

include h

theorem pos : 0 < w := by
  have hpos := b.winning_pos
  rw [h.winning] at hpos
  have hw : (0 : ℚ) < w := (div_pos_iff_of_pos_right (by positivity)).1 hpos
  exact_mod_cast hw

theorem stake_le : s ≤ w := by
  have hle : b.stake ≤ b.winning := le_add_of_nonneg_left pool_nonneg
  rw [h.stake, h.winning, div_le_div_iff_of_pos_right (by positivity)] at hle
  exact_mod_cast hle

theorem winning_le : w ≤ t := by
  have hle : b.winning ≤ b.total :=
    add_le_add_left (List.single_le_sum b.pools_nonneg _ (List.get_mem _ _)) _
  rw [h.winning, h.total, div_le_div_iff_of_pos_right (by positivity)] at hle
  exact_mod_cast hle

theorem feePct_le : f ≤ 10 ^ 4 := by
  have hle := b.feePct_le
  rw [h.feePct, div_le_iff₀ (by norm_num)] at hle
  norm_num at hle
  exact_mod_cast hle

theorem fee_units : ∃ φ : ℕ, φ ≤ t ∧ b.fee = φ / 10 ^ b.decimals := by
  obtain ⟨φ, hφ⟩ : InUnits b.decimals b.fee :=
    inUnits_floorTo (div_nonneg (mul_nonneg total_nonneg b.feePct_nonneg) (by norm_num))
  refine ⟨φ, ?_, hφ⟩
  have hfee := b.fee_le_total
  rw [hφ, h.total, div_le_div_iff_of_pos_right (by positivity)] at hfee
  exact_mod_cast hfee

variable (hsmall : 5 * (t * t) < 10 ^ 64)

include hsmall

/-- The pot and the product in units. -/
theorem product_units : ∃ n : ℕ, n ≤ t * t ∧
    FitsSig BIGNUMBER_PRECISION (b.total - b.fee) ∧
    b.stake * (b.total - b.fee) = n / 10 ^ (b.decimals + b.decimals) := by
  obtain ⟨φ, hle, hφ⟩ := h.fee_units
  have ht : t ≤ 10 ^ 64 := by nlinarith
  have hpot : b.total - b.fee = (t - φ : ℕ) / 10 ^ b.decimals := by
    rw [h.total, hφ, Nat.cast_sub hle, sub_div]
  refine ⟨s * (t - φ), ?_, ?_, ?_⟩
  · exact Nat.mul_le_mul (h.stake_le.trans h.winning_le) (Nat.sub_le t φ)
  · rw [hpot]
    exact fitsSig_units ((Nat.sub_le t φ).trans ht)
  · rw [hpot, h.stake, pow_add]
    push_cast
    field_simp

theorem fewDigits : b.FewDigits where
  sums := by
    intro ps hps
    obtain ⟨k, hk⟩ := inUnits_sum fun p hp => h.pools p (hps.subset hp)
    have hle : (k : ℚ) / 10 ^ b.decimals ≤ t / 10 ^ b.decimals := by
      rw [← hk, ← h.total]
      exact sum_le_total hps
    rw [div_le_div_iff_of_pos_right (by positivity)] at hle
    have hkt : k ≤ t := by exact_mod_cast hle
    rw [hk]
    exact fitsSig_units (hkt.trans (by nlinarith))
  total := by
    rw [h.total]
    exact fitsSig_units (by nlinarith)
  winning := by
    rw [h.winning]
    exact fitsSig_units (h.winning_le.trans (by nlinarith))
  pot := by
    obtain ⟨n, -, hpot, -⟩ := h.product_units hsmall
    exact hpot
  feeProduct := by
    have hle : t * f ≤ 10 ^ 64 := by
      have ht : t ≤ 10 ^ 32 := by nlinarith
      calc t * f ≤ 10 ^ 32 * 10 ^ 4 := Nat.mul_le_mul ht h.feePct_le
        _ ≤ 10 ^ 64 := by norm_num
    have hproduct : b.total * b.feePct = (t * f : ℕ) / 10 ^ (b.decimals + 2) := by
      rw [h.total, h.feePct, pow_add]
      push_cast
      field_simp
    rw [hproduct]
    exact fitsSig_units hle
  product := by
    obtain ⟨n, hle, -, hproduct⟩ := h.product_units hsmall
    rw [hproduct]
    exact fitsSig_units (hle.trans (by nlinarith))
  units := by
    have ht : t < 10 ^ 64 := by nlinarith
    rw [h.total, div_mul_cancel₀ _ (by positivity)]
    exact_mod_cast ht

theorem clearQuotient : b.ClearQuotient := by
  intro m hm
  obtain ⟨n, hle, -, hproduct⟩ := h.product_units hsmall
  have hquotient : b.quotient = n / w / 10 ^ b.decimals := by
    have hw : (w : ℚ) ≠ 0 := by exact_mod_cast h.pos.ne'
    rw [quotient, hproduct, h.winning, pow_add]
    field_simp
  have hwd : w * 10 ^ b.decimals < 10 ^ 63 := by
    have hw : w ≤ 10 ^ 32 := h.winning_le.trans (by nlinarith)
    calc w * 10 ^ b.decimals ≤ 10 ^ 32 * 10 ^ 18 :=
          Nat.mul_le_mul hw (Nat.pow_le_pow_right (by norm_num) b.decimals_le)
      _ < 10 ^ 63 := by norm_num
  rw [hquotient] at hm ⊢
  exact add_half_lt_of_lt h.pos hwd (by omega) hm

end Units

end Units

/-- **A total of less than thirty-two digits, in units of the token, meets both conditions** when the
fee has two decimals. -/
theorem clearQuotient_of_small {b : PooledBet} (hpools : ∀ p ∈ b.pools, InUnits b.decimals p)
    (hstake : InUnits b.decimals b.stake) (hpct : InUnits 2 b.feePct)
    (hsmall : 5 * (b.total * 10 ^ b.decimals) ^ 2 < 10 ^ 64) : b.FewDigits ∧ b.ClearQuotient := by
  obtain ⟨t, w, s, f, h⟩ := exists_units hpools hstake hpct
  have hnat : 5 * (t * t) < 10 ^ 64 := by
    rw [h.total, div_mul_cancel₀ _ (by positivity), sq] at hsmall
    exact_mod_cast hsmall
  exact ⟨h.fewDigits hnat, h.clearQuotient hnat⟩

end PooledBet

/-! ### The projection -/

/-- **Of few digits, a projection is exact if and only if its quotient is clear; so are those of a
split of the winning pool, and then they pay out no more than was staked.**  Small amounts have few
digits and clear quotients. -/
theorem projectPayout_exact_iff (M : MathJs) :
    (∀ args b, ProjectionArgs.Reads M args b → b.FewDigits →
      (args.Exact M b ↔ b.ClearQuotient)) ∧
    (∀ args bets pools index, List.Forall₂ (ProjectionArgs.Reads M) args bets →
      Split pools index bets → (∀ b ∈ bets, b.FewDigits) →
        (List.Forall₂ (ProjectionArgs.Exact M) args bets ∧ PayoutsConserve M args pools.sum ↔
          ∀ b ∈ bets, b.ClearQuotient)) ∧
    ∀ b : PooledBet, (∀ p ∈ b.pools, InUnits b.decimals p) → InUnits b.decimals b.stake →
      InUnits 2 b.feePct → 5 * (b.total * 10 ^ b.decimals) ^ 2 < 10 ^ 64 →
        b.FewDigits ∧ b.ClearQuotient := by
  have hone {args b} (h : ProjectionArgs.Reads M args b) (hfew : b.FewDigits) :
      args.Exact M b ↔ b.ClearQuotient :=
    (exact_iff_noUnitCrossed h).trans hfew.noUnitCrossed_iff
  refine ⟨fun args b => hone, fun args bets pools index hreads hsplit hfew => ?_,
    fun b => PooledBet.clearQuotient_of_small⟩
  constructor
  · rintro ⟨hexact, -⟩ b hb
    obtain ⟨i, hi, rfl⟩ := List.getElem_of_mem hb
    have hia : i < args.length := hreads.length_eq ▸ hi
    have hread : (args.get ⟨i, hia⟩).Reads M bets[i] := (List.forall₂_iff_get.1 hreads).2 i hia hi
    exact (hone hread (hfew _ hb)).1 ((List.forall₂_iff_get.1 hexact).2 i hia hi)
  · intro hclear
    have hexact : List.Forall₂ (ProjectionArgs.Exact M) args bets := by
      refine List.forall₂_iff_get.2 ⟨hreads.length_eq, fun i hia hi => ?_⟩
      have hb := List.get_mem bets ⟨i, hi⟩
      exact (hone ((List.forall₂_iff_get.1 hreads).2 i hia hi) (hfew _ hb)).2 (hclear _ hb)
    refine ⟨hexact, fun rs payouts hrs hpayouts r hr fee hfee => ?_⟩
    obtain ⟨hsame, hfees⟩ := payouts_of_exact hexact hrs hpayouts
    obtain ⟨b, hb, hvalue⟩ := hfees r hr
    rw [hfee] at hvalue
    rw [hsame, Option.some.inj hvalue, ← (hsplit.settled b hb).2, b.sum_settled]
    exact hsplit.payouts_le hb

/-! ### Bets of thirty-three digits -/

/-- A bet of all but one unit of the pool. -/
def longStake : ProjectionArgs where
  pools := .arr [.str "0.000000000000000001", .str "0.000000000000000001"]
  outcome := .num (.fin 0)
  stake := .str "999999999999999.999999999999999999"
  decimals := .num (.fin 18)

def longBet : PooledBet where
  pools := [1 / 10 ^ 18, 1 / 10 ^ 18]
  index := 0
  stake := 10 ^ 15 - 1 / 10 ^ 18
  feePct := 0
  decimals := 18
  index_lt := by decide
  pools_nonneg := by norm_num
  stake_pos := by norm_num
  feePct_nonneg := by norm_num
  feePct_le := by norm_num
  decimals_le := by norm_num

theorem longStake_reads : longStake.Reads plainMath longBet where
  pools := ⟨_, rfl, by decide +kernel⟩
  outcome := rfl
  stake := by decide +kernel
  feePct := by decide +kernel
  decimals := rfl

/-- **The bet pays what was staked, and is projected to pay one unit more.** -/
theorem longStake_overpaid : longStake.Reads plainMath longBet ∧ longBet.payout = longBet.stake ∧
    ∃ r, projectPayout plainMath longStake = .ok (some r) ∧
      plainMath.value r.payout = some (longBet.payout + 1 / 10 ^ 18) := by
  have hpayout : longBet.payout = longBet.stake := by decide +kernel
  have htext : longBet.projection.payout = "1000000000000000.000000000000000000" := by
    decide +kernel
  refine ⟨longStake_reads, hpayout, longBet.projection, projectPayout_spec longStake_reads, ?_⟩
  rw [htext, hpayout]
  decide +kernel

/-! ### Bets of a few units -/

/-- A bet on the first of two pools. -/
def twoPools (first stake : String) : ProjectionArgs where
  pools := .arr [.str first, .str "1"]
  outcome := .num (.fin 0)
  stake := .str stake
  feePct := .str "1.25"

/-- The bet on the first pool, which holds three units with it. -/
def twoPoolsBet (stake : ℕ) (hpos : 0 < stake) (hle : stake ≤ 3) : PooledBet where
  pools := [3 - stake, 1]
  index := 0
  stake := stake
  feePct := 5 / 4
  decimals := 8
  index_lt := by simp
  pools_nonneg := by
    have hq : (stake : ℚ) ≤ 3 := by exact_mod_cast hle
    simpa using hq
  stake_pos := by exact_mod_cast hpos
  feePct_nonneg := by norm_num
  feePct_le := by norm_num
  decimals_le := by norm_num

/-- Eight decimals are enough for it. -/
theorem twoPoolsBet_small {stake : ℕ} (hpos : 0 < stake) (hle : stake ≤ 3) :
    (∀ p ∈ (twoPoolsBet stake hpos hle).pools, InUnits 8 p) ∧
      InUnits 8 (twoPoolsBet stake hpos hle).stake ∧
      InUnits 2 (twoPoolsBet stake hpos hle).feePct ∧
      5 * ((twoPoolsBet stake hpos hle).total * 10 ^ 8) ^ 2 < 10 ^ 64 := by
  refine ⟨?_, ⟨stake * 10 ^ 8, ?_⟩, ⟨125, ?_⟩, ?_⟩
  · simp only [twoPoolsBet, List.forall_mem_cons, List.not_mem_nil, false_implies, implies_true,
      and_true]
    refine ⟨⟨(3 - stake) * 10 ^ 8, ?_⟩, ⟨10 ^ 8, by norm_num⟩⟩
    push_cast [Nat.cast_sub hle]
    field_simp
    norm_num
  · simp only [twoPoolsBet]
    push_cast
    field_simp
    norm_num
  · norm_num [twoPoolsBet]
  · have htotal : (twoPoolsBet stake hpos hle).total = 4 := by
      simp only [PooledBet.total, twoPoolsBet, List.sum_cons, List.sum_nil]
      ring
    rw [htotal]
    norm_num

theorem projectPayout_exact_iff_twoPools :
    List.Forall₂ (ProjectionArgs.Exact plainMath) [twoPools "2" "1", twoPools "1" "2"]
      [twoPoolsBet 1 (by decide) (by decide), twoPoolsBet 2 (by decide) (by decide)] ∧
    PayoutsConserve plainMath [twoPools "2" "1", twoPools "1" "2"] ([3, 1] : List ℚ).sum := by
  have hsmall (stake : ℕ) (hpos : 0 < stake) (hle : stake ≤ 3) :
      (twoPoolsBet stake hpos hle).FewDigits ∧ (twoPoolsBet stake hpos hle).ClearQuotient := by
    obtain ⟨hpools, hstake, hpct, htotal⟩ := twoPoolsBet_small hpos hle
    exact (projectPayout_exact_iff plainMath).2.2 _ hpools hstake hpct htotal
  refine ((projectPayout_exact_iff plainMath).2.1 _ _ [3, 1] 0 ?_ ?_ ?_).2 ?_
  · refine .cons ?_ (.cons ?_ .nil)
    · exact ⟨⟨_, rfl, by decide +kernel⟩, rfl, by decide +kernel, by decide +kernel, rfl⟩
    · exact ⟨⟨_, rfl, by decide +kernel⟩, rfl, by decide +kernel, by decide +kernel, rfl⟩
  · refine ⟨?_, ?_, by decide +kernel⟩
    · simp only [List.forall_mem_cons, List.not_mem_nil, false_implies, implies_true, and_true]
      exact ⟨⟨rfl, by decide +kernel⟩, rfl, by decide +kernel⟩
    · have hterms : ∀ b ∈ [twoPoolsBet 1 (by decide) (by decide),
          twoPoolsBet 2 (by decide) (by decide)], b.feePct = 5 / 4 ∧ b.decimals = 8 := by
        simp only [List.forall_mem_cons, List.not_mem_nil, false_implies, implies_true, and_true]
        exact ⟨⟨rfl, rfl⟩, rfl, rfl⟩
      intro b hb c hc
      rw [(hterms b hb).1, (hterms b hb).2, (hterms c hc).1, (hterms c hc).2]
      exact ⟨rfl, rfl⟩
  · simp only [List.forall_mem_cons, List.not_mem_nil, false_implies, implies_true, and_true]
    exact ⟨(hsmall 1 _ _).1, (hsmall 2 _ _).1⟩
  · simp only [List.forall_mem_cons, List.not_mem_nil, false_implies, implies_true, and_true]
    exact ⟨(hsmall 1 _ _).2, (hsmall 2 _ _).2⟩

end XChainSdk
