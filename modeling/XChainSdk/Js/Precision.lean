import XChainSdk.Js.Decimal
import Mathlib.Tactic.Ring

/-!
# Numbers of few significant digits

* `fitsSig_iff` : a number has `p` digits at most when it is an integer of that size, scaled.
* `fitsSig_roundSig`, `FitsSig.mul_zpow`, `FitsSig.floor` : rounding, moving the point and flooring
  leave no more digits.
* `roundSig_le_of_fits`, `le_roundSig_of_fits`, `roundSig_le_add` : how far rounding goes.
-/

namespace XChainSdk

variable {p : ℕ} {q : ℚ}

/-- The leading digit is worth one unit, `p - 1` places above the last one. -/
theorem abs_lt_sigUnit (p : ℕ) (q : ℚ) : |q| < 10 ^ p * sigUnit p q := by
  have hlog := Int.lt_zpow_succ_log_self (b := 10) (by decide) |q|
  have hexp : Int.log 10 |q| + 1 = (p : ℤ) + (Int.log 10 |q| - p + 1) := by ring
  rw [hexp] at hlog
  rw [sigUnit, ← zpow_natCast, ← zpow_add₀ (by norm_num)]
  exact_mod_cast hlog

theorem sigUnit_le {e : ℤ} (hq : q ≠ 0) (h : |q| < 10 ^ p * 10 ^ e) :
    ∃ n : ℕ, (10 : ℚ) ^ e = 10 ^ n * sigUnit p q := by
  have hlog : Int.log 10 |q| < p + e := by
    rw [← Int.lt_zpow_iff_log_lt (by decide) (abs_pos.2 hq), zpow_add₀ (by norm_num), zpow_natCast]
    exact_mod_cast h
  obtain ⟨n, hn⟩ := Int.eq_ofNat_of_zero_le (a := e - (Int.log 10 |q| - p + 1)) (by omega)
  refine ⟨n, ?_⟩
  rw [sigUnit, ← zpow_natCast, ← zpow_add₀ (by norm_num)]
  congr 1
  omega

theorem fitsSig_of_int {n : ℤ} (h : |q| = n * sigUnit p q) : FitsSig p q := by
  rw [FitsSig, h, mul_div_cancel_right₀ _ (sigUnit_pos p q).ne']
  exact Rat.den_intCast n

theorem fitsSig_zero (p : ℕ) : FitsSig p 0 := fitsSig_of_int (n := 0) (by simp)

/-- A number of `p` digits is an integer of that size, scaled by a power of ten. -/
theorem fitsSig_iff (hp : 0 < p) :
    FitsSig p q ↔ ∃ k e : ℤ, |k| ≤ 10 ^ p ∧ q = k * 10 ^ e := by
  constructor
  · intro h
    have hz : ((|q| / sigUnit p q).num : ℚ) = |q| / sigUnit p q := Rat.coe_int_num_of_den_eq_one h
    generalize (|q| / sigUnit p q).num = n at hz
    have habs : |q| = n * sigUnit p q := by rw [hz, div_mul_cancel₀ _ (sigUnit_pos p q).ne']
    have h0 : 0 ≤ n := by
      have hdiv := div_nonneg (abs_nonneg q) (sigUnit_pos p q).le
      rw [← hz] at hdiv
      exact_mod_cast hdiv
    have hle : n ≤ 10 ^ p := by
      have hlt := abs_lt_sigUnit p q
      rw [habs] at hlt
      have hn : (n : ℚ) < 10 ^ p := lt_of_mul_lt_mul_right hlt (sigUnit_pos p q).le
      exact_mod_cast hn.le
    rcases le_total 0 q with hq | hq
    · refine ⟨n, Int.log 10 |q| - p + 1, by rwa [abs_of_nonneg h0], ?_⟩
      rw [← abs_of_nonneg hq, abs_abs]
      exact habs
    · refine ⟨-n, Int.log 10 |q| - p + 1, by rwa [abs_neg, abs_of_nonneg h0], ?_⟩
      rw [Int.cast_neg, neg_mul]
      calc q = -|q| := by rw [abs_of_nonpos hq, neg_neg]
        _ = -(n * sigUnit p q) := congrArg _ habs
  · rintro ⟨k, e, hk, rfl⟩
    by_cases h0 : k = 0
    · rw [h0, Int.cast_zero, zero_mul]
      exact fitsSig_zero p
    have hten : (0 : ℚ) < 10 ^ e := zpow_pos (by norm_num) _
    have habs : |(k : ℚ) * 10 ^ e| = |k| * 10 ^ e := by
      rw [abs_mul, abs_of_pos hten, ← Int.cast_abs]
    have hne : (k : ℚ) * 10 ^ e ≠ 0 := mul_ne_zero (by exact_mod_cast h0) hten.ne'
    rcases hk.lt_or_eq with hlt | heq
    · -- all digits of `k` are at or above the last one that is kept
      obtain ⟨n, hn⟩ := sigUnit_le (p := p) (e := e) hne (by
        rw [habs]
        exact mul_lt_mul_of_pos_right (by exact_mod_cast hlt) hten)
      refine fitsSig_of_int (n := |k| * 10 ^ n) ?_
      rw [habs]
      conv_lhs => rw [hn]
      push_cast
      ring
    · -- a power of ten is one digit
      have hpow : |(k : ℚ) * 10 ^ e| = 10 ^ (e + p) := by
        rw [habs, heq, zpow_add₀ (by norm_num), zpow_natCast]
        push_cast
        ring
      obtain ⟨n, hn⟩ := sigUnit_le (p := p) (e := e + p) hne (by
        rw [hpow, lt_mul_iff_one_lt_left (zpow_pos (by norm_num) _)]
        exact one_lt_pow₀ (by norm_num) (by omega))
      refine fitsSig_of_int (n := 10 ^ n) ?_
      rw [hpow]
      conv_lhs => rw [hn]
      push_cast
      rfl

/-- Rounding to `p` digits leaves `p` digits. -/
theorem fitsSig_roundSig (hp : 0 < p) (q : ℚ) : FitsSig p (roundSig p q) := by
  have hunit := sigUnit_pos p q
  have hdiv : 0 ≤ |q| / sigUnit p q := div_nonneg (abs_nonneg q) hunit.le
  have h0 : 0 ≤ ⌊|q| / sigUnit p q + 1 / 2⌋ := Int.floor_nonneg.2 (by linarith)
  have hle : ⌊|q| / sigUnit p q + 1 / 2⌋ ≤ 10 ^ p := by
    have hlt : |q| / sigUnit p q < 10 ^ p := by
      rw [div_lt_iff₀ hunit]
      exact abs_lt_sigUnit p q
    refine Int.lt_add_one_iff.1 (Int.floor_lt.2 ?_)
    push_cast
    linarith
  rw [roundSig]
  split_ifs
  · refine (fitsSig_iff hp).2 ⟨-⌊|q| / sigUnit p q + 1 / 2⌋, Int.log 10 |q| - p + 1,
      by rwa [abs_neg, abs_of_nonneg h0], ?_⟩
    rw [Int.cast_neg, neg_mul]
    rfl
  · exact (fitsSig_iff hp).2 ⟨_, _, by rwa [abs_of_nonneg h0], rfl⟩

/-- Moving the point keeps the digits. -/
theorem FitsSig.mul_zpow (hp : 0 < p) (h : FitsSig p q) (d : ℤ) : FitsSig p (q * 10 ^ d) := by
  obtain ⟨k, e, hk, rfl⟩ := (fitsSig_iff hp).1 h
  exact (fitsSig_iff hp).2 ⟨k, e + d, hk, by rw [zpow_add₀ (by norm_num), mul_assoc]⟩

theorem FitsSig.floor (hp : 0 < p) (h : FitsSig p q) : FitsSig p ⌊q⌋ := by
  obtain ⟨k, e, hk, rfl⟩ := (fitsSig_iff hp).1 h
  rcases le_or_gt 0 e with he | he
  · obtain ⟨n, rfl⟩ := Int.eq_ofNat_of_zero_le he
    have hint : (k : ℚ) * 10 ^ (n : ℤ) = ((k * 10 ^ n : ℤ) : ℚ) := by
      rw [zpow_natCast]
      push_cast
      rfl
    rw [hint, Int.floor_intCast, ← hint]
    exact h
  · -- at least one digit is cut off, which leaves room for a carry
    refine (fitsSig_iff hp).2 ⟨⌊(k : ℚ) * 10 ^ e⌋, 0, ?_, by simp⟩
    have hten : (10 : ℚ) ^ e ≤ 10⁻¹ := by
      have hle : (10 : ℚ) ^ e ≤ 10 ^ (-1 : ℤ) := zpow_le_zpow_right₀ (by norm_num) (by omega)
      simpa using hle
    have hpos : (0 : ℚ) < 10 ^ e := zpow_pos (by norm_num) _
    have habs : |(k : ℚ) * 10 ^ e| ≤ 10 ^ p * 10⁻¹ := by
      rw [abs_mul, abs_of_pos hpos]
      refine mul_le_mul ?_ hten hpos.le (by positivity)
      exact_mod_cast hk
    have hpow : (10 : ℚ) ≤ 10 ^ p := by
      calc (10 : ℚ) = 10 ^ 1 := (pow_one _).symm
        _ ≤ 10 ^ p := pow_le_pow_right₀ (by norm_num) hp
    obtain ⟨hlo, hhi⟩ := abs_le.1 habs
    rw [abs_le]
    constructor
    · refine Int.le_floor.2 ?_
      push_cast
      linarith
    · have hfloor := (Int.floor_le ((k : ℚ) * 10 ^ e)).trans hhi
      have hle : ((⌊(k : ℚ) * 10 ^ e⌋ : ℤ) : ℚ) ≤ ((10 ^ p : ℤ) : ℚ) := by
        push_cast
        linarith
      exact_mod_cast hle

variable {z : ℚ}

theorem roundSig_of_nonneg (h : 0 ≤ q) :
    roundSig p q = ⌊q / sigUnit p q + 1 / 2⌋ * sigUnit p q := by
  rw [roundSig, if_neg (not_lt.2 h), abs_of_nonneg h]

/-- Rounding goes no further up than the next number of `p` digits. -/
theorem roundSig_le_of_fits (hp : 0 < p) (h0 : 0 ≤ q) (hle : q ≤ z) (hz : FitsSig p z) :
    roundSig p q ≤ z := by
  rcases hle.eq_or_lt with rfl | hlt
  · rw [roundSig_of_fits hz]
  rcases h0.eq_or_lt with rfl | hpos
  · rwa [roundSig_of_fits (fitsSig_zero p)]
  obtain ⟨k, e, hk, rfl⟩ := (fitsSig_iff hp).1 hz
  have hten : (0 : ℚ) < 10 ^ e := zpow_pos (by norm_num) e
  have hkq : (k : ℚ) ≤ 10 ^ p := by exact_mod_cast (le_abs_self k).trans hk
  obtain ⟨n, hn⟩ := sigUnit_le (p := p) (q := q) (e := e) hpos.ne' (by
    rw [abs_of_pos hpos]
    exact hlt.trans_le (mul_le_mul_of_nonneg_right hkq hten.le))
  have hunit := sigUnit_pos p q
  -- the bound is a whole number of the units that are kept
  have hfloor : ⌊q / sigUnit p q + 1 / 2⌋ ≤ k * 10 ^ n := by
    refine Int.lt_add_one_iff.1 (Int.floor_lt.2 ?_)
    have hdiv : q / sigUnit p q < k * 10 ^ n := by
      rw [div_lt_iff₀ hunit, mul_assoc, ← hn]
      exact hlt
    push_cast
    linarith
  calc roundSig p q = ⌊q / sigUnit p q + 1 / 2⌋ * sigUnit p q := roundSig_of_nonneg h0
    _ ≤ (k * 10 ^ n : ℤ) * sigUnit p q :=
      mul_le_mul_of_nonneg_right (by exact_mod_cast hfloor) hunit.le
    _ = k * 10 ^ e := by
      rw [hn]
      push_cast
      ring

/-- Rounding goes no further down than the number of `p` digits before. -/
theorem le_roundSig_of_fits (hp : 0 < p) (h0 : 0 ≤ z) (hle : z ≤ q) (hz : FitsSig p z) :
    z ≤ roundSig p q := by
  rcases h0.eq_or_lt with rfl | hpos
  · exact roundSig_nonneg hle
  have hq : 0 < q := hpos.trans_le hle
  obtain ⟨k, e, hk, rfl⟩ := (fitsSig_iff hp).1 hz
  have hunit := sigUnit_pos p q
  -- some whole number of units lies between
  obtain ⟨n, hlow, hhigh⟩ : ∃ n : ℤ, (k : ℚ) * 10 ^ e ≤ n * sigUnit p q ∧ n * sigUnit p q ≤ q := by
    rcases le_or_gt (Int.log 10 |q| - p + 1) e with he | he
    · obtain ⟨j, hj⟩ := Int.eq_ofNat_of_zero_le (a := e - (Int.log 10 |q| - p + 1)) (by omega)
      have hten : (10 : ℚ) ^ e = 10 ^ j * sigUnit p q := by
        rw [sigUnit, ← zpow_natCast, ← zpow_add₀ (by norm_num)]
        congr 1
        omega
      refine ⟨k * 10 ^ j, le_of_eq ?_, ?_⟩
      · rw [hten]
        push_cast
        ring
      · refine le_trans (le_of_eq ?_) hle
        rw [hten]
        push_cast
        ring
    · have hlead : ((10 ^ (p - 1) : ℤ) : ℚ) * sigUnit p q = 10 ^ Int.log 10 |q| := by
        rw [sigUnit]
        push_cast
        rw [← zpow_natCast, ← zpow_add₀ (by norm_num)]
        congr 1
        omega
      refine ⟨10 ^ (p - 1), ?_, ?_⟩
      · rw [hlead]
        have hkq : (k : ℚ) ≤ 10 ^ p := by exact_mod_cast (le_abs_self k).trans hk
        calc (k : ℚ) * 10 ^ e ≤ 10 ^ p * 10 ^ e :=
              mul_le_mul_of_nonneg_right hkq (zpow_nonneg (by norm_num) e)
          _ = 10 ^ ((p : ℤ) + e) := by rw [zpow_add₀ (by norm_num), zpow_natCast]
          _ ≤ 10 ^ Int.log 10 |q| := zpow_le_zpow_right₀ (by norm_num) (by omega)
      · rw [hlead, abs_of_pos hq]
        exact_mod_cast Int.zpow_log_le_self (b := 10) (by decide) hq
  have hfloor : n ≤ ⌊q / sigUnit p q + 1 / 2⌋ := by
    refine Int.le_floor.2 ?_
    have hdiv : (n : ℚ) ≤ q / sigUnit p q := (le_div_iff₀ hunit).2 hhigh
    linarith
  calc (k : ℚ) * 10 ^ e ≤ n * sigUnit p q := hlow
    _ ≤ ⌊q / sigUnit p q + 1 / 2⌋ * sigUnit p q :=
      mul_le_mul_of_nonneg_right (by exact_mod_cast hfloor) hunit.le
    _ = roundSig p q := (roundSig_of_nonneg hq.le).symm

/-- What rounding adds is at most half a unit. -/
theorem roundSig_le_add (h0 : 0 ≤ q) : roundSig p q ≤ q + sigUnit p q / 2 := by
  have hunit := sigUnit_pos p q
  calc roundSig p q = ⌊q / sigUnit p q + 1 / 2⌋ * sigUnit p q := roundSig_of_nonneg h0
    _ ≤ (q / sigUnit p q + 1 / 2) * sigUnit p q :=
      mul_le_mul_of_nonneg_right (Int.floor_le _) hunit.le
    _ = q + sigUnit p q / 2 := by
      rw [add_mul, div_mul_cancel₀ _ hunit.ne']
      ring

/-- A positive number is worth at least one unit of the leading digit. -/
theorem sigUnit_le_div (h : 0 < q) : sigUnit p q ≤ q * 10 / 10 ^ p := by
  have hlog := Int.zpow_log_le_self (b := 10) (R := ℚ) (by decide) h
  have hpow : (0 : ℚ) < 10 ^ p := by positivity
  rw [sigUnit, abs_of_pos h, zpow_add₀ (by norm_num), zpow_sub₀ (by norm_num), zpow_natCast, zpow_one,
    div_mul_eq_mul_div]
  refine div_le_div_of_nonneg_right (mul_le_mul_of_nonneg_right ?_ (by norm_num)) hpow.le
  exact_mod_cast hlog

end XChainSdk
