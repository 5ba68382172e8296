import XChainSdk.Js.Number
import Mathlib.Tactic.Linarith
import Mathlib.Tactic.Ring

/-!
# Rounding to doubles

* `roundEven_mono` : rounding to the nearest integer keeps the order.
* `doubleMagnitude` : the magnitude of the nearest double, were there no largest one.
* `toDouble_mono` : rounding to the nearest double keeps the order.
-/

namespace XChainSdk

/-! ### The nearest integer -/

theorem roundEven_intCast (z : ℤ) : roundEven z = z := by
  simp [roundEven]

theorem roundEven_le_floor_add_one (q : ℚ) : roundEven q ≤ ⌊q⌋ + 1 := by
  unfold roundEven
  dsimp only
  split_ifs <;> omega

theorem roundEven_mono {x y : ℚ} (h : x ≤ y) : roundEven x ≤ roundEven y := by
  rcases (Int.floor_mono h).lt_or_eq with hlt | heq
  · exact (roundEven_le_floor_add_one x).trans (hlt.trans_le (floor_le_roundEven y))
  · -- both lie between the same integers
    unfold roundEven
    dsimp only
    rw [heq]
    split_ifs <;> first | omega | linarith

/-- An integer bound survives the rounding. -/
theorem roundEven_le_of_le {q : ℚ} {z : ℤ} (h : q ≤ z) : roundEven q ≤ z := by
  rw [← roundEven_intCast z]
  exact roundEven_mono h

theorem le_roundEven_of_le {q : ℚ} {z : ℤ} (h : z ≤ q) : z ≤ roundEven q := by
  rw [← roundEven_intCast z]
  exact roundEven_mono h

/-! ### The nearest double -/

/-- The exponent of the last bit. -/
def lastBit (q : ℚ) : ℤ := max (Int.log 2 |q| - 52) (-1074)

/-- The magnitude of the nearest double, were there no largest one. -/
def doubleMagnitude (q : ℚ) : ℚ := roundEven (|q| / 2 ^ lastBit q) * 2 ^ lastBit q

variable {x y : ℚ}

theorem unit_pos (x : ℚ) : (0 : ℚ) < 2 ^ lastBit x := zpow_pos (by norm_num) _

theorem doubleMagnitude_nonneg (x : ℚ) : 0 ≤ doubleMagnitude x := by
  have hround : 0 ≤ roundEven (|x| / 2 ^ lastBit x) :=
    le_roundEven_of_le (by simpa using div_nonneg (abs_nonneg x) (unit_pos x).le)
  exact mul_nonneg (by exact_mod_cast hround) (unit_pos x).le

theorem doubleMagnitude_eq_of_int {z : ℤ} (h : |x| = z * 2 ^ lastBit x) :
    doubleMagnitude x = |x| := by
  rw [doubleMagnitude, h, mul_div_cancel_right₀ _ (unit_pos x).ne', roundEven_intCast]

/-- Small integers are doubles. -/
theorem doubleMagnitude_of_int {n : ℕ} (h : n ≤ 2 ^ 53) (hx : |x| = n) : doubleMagnitude x = n := by
  have hlog : Int.log 2 |x| ≤ 53 := by
    rcases Nat.eq_zero_or_pos n with rfl | hn
    · simp [hx]
    · have hlt : |x| < ((2 : ℕ) : ℚ) ^ (54 : ℤ) := by
        rw [hx]
        calc (n : ℚ) ≤ 2 ^ 53 := by exact_mod_cast h
          _ < ((2 : ℕ) : ℚ) ^ (54 : ℤ) := by norm_num
      have habs : 0 < |x| := by rw [hx]; exact_mod_cast hn
      have hlog := (Int.lt_zpow_iff_log_lt (by decide) habs).1 hlt
      omega
  rw [← hx]
  rcases le_or_gt (lastBit x) 0 with he | he
  · -- a whole number of units that are at most one
    obtain ⟨k, hk⟩ := Int.eq_ofNat_of_zero_le (neg_nonneg.2 he)
    refine doubleMagnitude_eq_of_int (z := n * 2 ^ k) ?_
    have he' : lastBit x = -(k : ℤ) := by omega
    rw [hx, he', zpow_neg, zpow_natCast]
    push_cast
    rw [mul_assoc, mul_inv_cancel₀ (by positivity), mul_one]
  · have he' : lastBit x = 1 ∧ Int.log 2 |x| = 53 := by
      unfold lastBit at he ⊢
      omega
    have habs : 0 < |x| := by
      refine lt_of_le_of_ne (abs_nonneg x) fun h0 => ?_
      rw [← h0] at he'
      simp at he'
    have hpow : (2 : ℚ) ^ (53 : ℤ) ≤ |x| := by
      rw [← he'.2]
      exact_mod_cast Int.zpow_log_le_self (by decide : 1 < 2) habs
    have hn : |x| = 2 ^ 53 := by
      refine le_antisymm ?_ (by exact_mod_cast hpow)
      rw [hx]
      exact_mod_cast h
    refine doubleMagnitude_eq_of_int (z := 2 ^ 52) ?_
    rw [he'.1, hn]
    norm_num

theorem toDouble_eq (x : ℚ) : toDouble x =
    if 2 ^ 1024 ≤ doubleMagnitude x then .inf (decide (x < 0))
    else .fin (if x < 0 then -doubleMagnitude x else doubleMagnitude x) := by
  unfold toDouble
  split
  next h =>
    have hx : |x| = x.num.natAbs := by
      have hnum : (x.num : ℚ) = x := Rat.coe_int_num_of_den_eq_one h.1
      conv_lhs => rw [← hnum]
      rw [← Int.cast_abs, Int.abs_eq_natAbs, Int.cast_natCast]
    rw [doubleMagnitude_of_int h.2 hx, if_neg, ← hx]
    · congr 1
      split_ifs with hneg
      · rw [abs_of_neg hneg, neg_neg]
      · rw [abs_of_nonneg (not_lt.1 hneg)]
    · rw [not_le]
      calc (x.num.natAbs : ℚ) ≤ 2 ^ 53 := by exact_mod_cast h.2
        _ < 2 ^ 1024 := pow_lt_pow_right₀ (by norm_num) (by norm_num)
  next => rfl

/-- Magnitudes keep their order. -/
theorem doubleMagnitude_mono (h : |x| ≤ |y|) : doubleMagnitude x ≤ doubleMagnitude y := by
  rcases (abs_nonneg x).eq_or_lt with h0 | hpos
  · have hzero : doubleMagnitude x = 0 := by
      rw [doubleMagnitude_of_int (n := 0) (by decide) (by rw [← h0]; simp), Nat.cast_zero]
    rw [hzero]
    exact doubleMagnitude_nonneg y
  have hlog : Int.log 2 |x| ≤ Int.log 2 |y| := Int.log_mono_right hpos h
  have hle : lastBit x ≤ lastBit y := by
    unfold lastBit
    omega
  have hux := unit_pos x
  have huy := unit_pos y
  rcases hle.eq_or_lt with heq | hlt
  · unfold doubleMagnitude
    rw [heq] at hux ⊢
    refine mul_le_mul_of_nonneg_right ?_ huy.le
    exact_mod_cast roundEven_mono (div_le_div_of_nonneg_right h huy.le)
  · -- a power of two lies between them, and is a multiple of both units
    have hL : lastBit y = Int.log 2 |y| - 52 ∧ Int.log 2 |x| < Int.log 2 |y| ∧
        lastBit x ≤ Int.log 2 |y| := by
      unfold lastBit at hlt ⊢
      omega
    obtain ⟨hy, hxy, hxL⟩ := hL
    have hlow : |x| ≤ (2 : ℚ) ^ Int.log 2 |y| :=
      ((Int.lt_zpow_iff_log_lt (by decide) hpos).2 hxy).le
    have hhigh : (2 : ℚ) ^ Int.log 2 |y| ≤ |y| := by
      exact_mod_cast Int.zpow_log_le_self (by decide : 1 < 2) (hpos.trans_le h)
    obtain ⟨k, hk⟩ := Int.eq_ofNat_of_zero_le (sub_nonneg.2 hxL)
    have hkx : (2 : ℚ) ^ Int.log 2 |y| = (2 ^ k : ℤ) * 2 ^ lastBit x := by
      push_cast
      rw [← zpow_natCast, ← zpow_add₀ (by norm_num)]
      congr 1
      omega
    have hky : (2 : ℚ) ^ Int.log 2 |y| = (2 ^ 52 : ℤ) * 2 ^ lastBit y := by
      rw [hy, zpow_sub₀ (by norm_num)]
      push_cast
      ring
    have h1 : doubleMagnitude x ≤ 2 ^ Int.log 2 |y| := by
      rw [hkx]
      refine mul_le_mul_of_nonneg_right ?_ hux.le
      have hround : roundEven (|x| / 2 ^ lastBit x) ≤ 2 ^ k := by
        refine roundEven_le_of_le ?_
        rw [div_le_iff₀ hux, ← hkx]
        exact hlow
      exact_mod_cast hround
    have h2 : (2 : ℚ) ^ Int.log 2 |y| ≤ doubleMagnitude y := by
      rw [hky]
      refine mul_le_mul_of_nonneg_right ?_ huy.le
      have hround : 2 ^ 52 ≤ roundEven (|y| / 2 ^ lastBit y) := by
        refine le_roundEven_of_le ?_
        rw [le_div_iff₀ huy, ← hky]
        exact hhigh
      exact_mod_cast hround
    exact h1.trans h2

/-- **Rounding to doubles keeps the order.** -/
theorem toDouble_mono (h : x ≤ y) : (toDouble x).le (toDouble y) = true := by
  rw [toDouble_eq, toDouble_eq]
  rcases lt_or_ge x 0 with hx | hx
  · rcases lt_or_ge y 0 with hy | hy
    · have hmono : doubleMagnitude y ≤ doubleMagnitude x := by
        refine doubleMagnitude_mono ?_
        rw [abs_of_neg hx, abs_of_neg hy]
        linarith
      by_cases hX : 2 ^ 1024 ≤ doubleMagnitude x
      · rw [if_pos hX]
        split <;> simp [JsNum.le, hx]
      · have hY : ¬ 2 ^ 1024 ≤ doubleMagnitude y := fun hY => hX (hY.trans hmono)
        simpa [hX, hY, hx, hy, JsNum.le] using hmono
    · have hx0 := doubleMagnitude_nonneg x
      have hy0 := doubleMagnitude_nonneg y
      have hle : -doubleMagnitude x ≤ doubleMagnitude y := by linarith
      by_cases hX : 2 ^ 1024 ≤ doubleMagnitude x <;> by_cases hY : 2 ^ 1024 ≤ doubleMagnitude y <;>
        simp [hX, hY, hx, not_lt.2 hy, JsNum.le, hle]
  · have hy : 0 ≤ y := hx.trans h
    have hmono : doubleMagnitude x ≤ doubleMagnitude y := by
      refine doubleMagnitude_mono ?_
      rwa [abs_of_nonneg hx, abs_of_nonneg hy]
    by_cases hY : 2 ^ 1024 ≤ doubleMagnitude y
    · rw [if_pos hY]
      split <;> simp [JsNum.le, not_lt.2 hx, not_lt.2 hy]
    · have hX : ¬ 2 ^ 1024 ≤ doubleMagnitude x := fun hX => hY (hX.trans hmono)
      simpa [hX, hY, not_lt.2 hx, not_lt.2 hy, JsNum.le] using hmono

end XChainSdk
