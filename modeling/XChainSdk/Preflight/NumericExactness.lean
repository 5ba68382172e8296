import XChainSdk.Js.Doubles
import XChainSdk.Js.Precision
import XChainSdk.Preflight.Numeric

/-!
# How exact the checks compute

A product of sixty-four digits is floored exactly.  A bound is compared exactly with any digit
string, and with a fraction at the half above it, where the database rounds up.

* `mulFloor_of_spells` : the product of a distribution.
* `exceedsUnsignedColumn_digits`, `exceedsUnsignedColumn_point` : the bound, by spelling.
* `numeric_exact` : **the exact floor and the exact bound, as far as digits and doubles reach**.
-/

namespace XChainSdk

namespace Numeric

/-! ### Products -/

/-- The floor at `d` decimals. -/
def flooredAt (d : ℤ) (q : ℚ) : ℚ := ⌊q * 10 ^ d⌋ / 10 ^ d

theorem flooredAt_le (d : ℤ) (q : ℚ) : flooredAt d q ≤ q := by
  rw [flooredAt, div_le_iff₀ (zpow_pos (by norm_num) _)]
  exact Int.floor_le _

variable {M : MathJs} {s t : String} {p q : ℚ}

theorem fitsSig_readable (h : FitsSig BIGNUMBER_PRECISION q) :
    FitsSig BIGNUMBER_PRECISION (readable q) := by
  rcases readable_eq_or_zero q with hq | hq <;> rw [hq]
  · exact h
  · exact fitsSig_zero _

/-- After the product nothing is rounded any more. -/
theorem mulFloor_of_spells (hs : Spells s p) (ht : Spells t q) (decimals : Js) :
    mulFloor M (.str s) (.str t) decimals = some (toFixed (flooredAt (wholeDecimals decimals)
      (readable (roundSig BIGNUMBER_PRECISION (readable p * readable q))))) := by
  have hp : 0 < BIGNUMBER_PRECISION := by decide
  generalize hr : readable (roundSig BIGNUMBER_PRECISION (readable p * readable q)) = r
  have hfit : FitsSig BIGNUMBER_PRECISION r := hr ▸ fitsSig_readable (fitsSig_roundSig hp _)
  have hscaled (d : ℤ) : roundSig BIGNUMBER_PRECISION (r * 10 ^ d) = r * 10 ^ d :=
    roundSig_of_fits (hfit.mul_zpow hp d)
  have hfloored (d : ℤ) : roundSig BIGNUMBER_PRECISION ((⌊r * 10 ^ d⌋ : ℚ) / 10 ^ d) =
      ⌊r * 10 ^ d⌋ / 10 ^ d := by
    refine roundSig_of_fits ?_
    rw [div_eq_mul_inv, ← zpow_neg]
    exact ((hfit.mul_zpow hp d).floor hp).mul_zpow hp (-d)
  have hten (d : ℤ) : (10 : ℚ) ^ d ≠ 0 := zpow_ne_zero _ (by norm_num)
  simp [mulFloor, hs.bcnum M, ht.bcnum M, JsNum.times, reread, hr, hscaled, JsNum.floor,
    JsNum.dividedBy, hten, hfloored, JsNum.toFixedText, flooredAt]

theorem mulFloor_exact (hs : Spells s p) (ht : Spells t q) (decimals : Js)
    (hp : (toDouble p).isFinite = true) (hq : (toDouble q).isFinite = true)
    (hpq : (toDouble (p * q)).isFinite = true) (hfit : FitsSig BIGNUMBER_PRECISION (p * q)) :
    mulFloor M (.str s) (.str t) decimals =
      some (toFixed (flooredAt (wholeDecimals decimals) (p * q))) := by
  rw [mulFloor_of_spells hs ht]
  simp only [readable, hp, hq, if_true, roundSig_of_fits hfit, hpq]

-- amounts of 18 decimals whose product has more digits, and is rounded up past its floor
example : mulFloor plainMath (.str "999999999999999.999999999999999999")
    (.str "1000000000000000.000000000000000001") (.num (.fin 0)) =
      some "1000000000000000000000000000000" := by
  decide +kernel

/-! ### Bounds -/

/-- The text is a number in plain notation: a sign or none, digits, and a point before any
decimals. -/
def IsSpelling (cs : List Char) (neg : Bool) (ip fs : List Char) : Prop :=
  AllDigits ip ∧ ip ≠ [] ∧ AllDigits fs ∧ splitSign cs = (neg, pointText ip fs)

/-- A reader that reads every plain notation exactly. -/
def ReadsSpellings (M : MathJs) : Prop := ∀ cs neg ip fs, IsSpelling cs neg ip fs →
  M.bignumber (String.ofList cs) = some (.fin (signedValue neg ip fs))

variable {cs ip fs : List Char} {neg : Bool} {max : ℕ}

theorem splitSign_cases (cs : List Char) :
    cs = signedText (splitSign cs).1 (splitSign cs).2 [] ∨
      cs = '+' :: (splitSign cs).2 ∧ (splitSign cs).1 = false := by
  unfold splitSign
  split
  · exact .inl (by simp [signedText, pointText])
  · exact .inr ⟨rfl, rfl⟩
  · exact .inl (by simp [signedText, pointText])

theorem stringToNumber_spelling (h : IsSpelling cs neg ip fs) :
    stringToNumber (String.ofList cs) = toDouble (signedValue neg ip fs) := by
  obtain ⟨hip, hne, hfs, hsplit⟩ := h
  have hcases := splitSign_cases cs
  rw [hsplit] at hcases
  rcases hcases with hcs | ⟨hcs, rfl⟩
  · have hsame : signedText neg (pointText ip fs) [] = signedText neg ip fs := by
      simp [signedText, pointText]
    rw [hcs, hsame, stringToNumber_signedText hip hne hfs]
  · have hspace : ∀ c ∈ '+' :: pointText ip fs, isJsSpace c = false := by
      intro c hc
      rcases List.mem_cons.1 hc with rfl | hc
      · decide
      · exact @isJsSpace_of_mem_signedText false _ _ hip hfs c hc
    rw [hcs, stringToNumber, String.toList_ofList, trimChars_of_no_space hspace]
    have hsame : splitSign ('+' :: pointText ip fs) = splitSign (signedText false ip fs) := by
      rw [splitSign_signedText hip hne]
      rfl
    have hliteral : decimalLiteral ('+' :: pointText ip fs) =
        toDouble (signedValue false ip fs) := by
      rw [← decimalLiteral_signedText hip hne hfs, decimalLiteral, hsame]
      rfl
    exact hliteral

/-- Without a point the integer itself is compared. -/
theorem exceedsUnsignedColumn_digits (hs : trimChars s.toList = cs)
    (h : IsSpelling cs neg ip []) : exceedsUnsignedColumn M (.str s) max =
      decide (signedValue neg ip [] < 0 ∨ (max : ℚ) < signedValue neg ip []) := by
  obtain ⟨hip, hne, -, hsplit⟩ := h
  have htext : pointText ip [] = ip := by simp [pointText]
  have hpart : exponentPart (trim s).toList =
      some (if neg then -(digitsValue ip : ℤ) else digitsValue ip) := by
    simp only [trim, String.toList_ofList, hs, exponentPart, hsplit, htext]
    rw [if_pos ⟨hne, List.all_eq_true.2 hip⟩]
  have hvalue : signedValue neg ip [] =
      ((if neg then -(digitsValue ip : ℤ) else digitsValue ip : ℤ) : ℚ) := by
    cases neg <;> simp [signedValue]
  simp only [exceedsUnsignedColumn, Js.isNullish, Bool.false_eq_true, if_false, Js.toText_str, hpart,
    hvalue]
  refine decide_eq_decide.2 (or_congr ?_ ?_)
  · exact_mod_cast Iff.rfl
  · exact_mod_cast Iff.rfl

theorem fitsSig_half (h : max < 10 ^ 63) : FitsSig BIGNUMBER_PRECISION ((max : ℚ) + 1 / 2) := by
  refine (fitsSig_iff (by decide)).2 ⟨10 * max + 5, -1, ?_, ?_⟩
  · rw [abs_of_nonneg (by positivity), BIGNUMBER_PRECISION]
    have hmax : (max : ℤ) < 10 ^ 63 := by exact_mod_cast h
    omega
  · push_cast
    rw [zpow_neg_one]
    ring

/-- With a point the nearest double is compared, and the number itself with half above the bound. -/
theorem exceedsUnsignedColumn_point (hM : ReadsSpellings M) (hmax : max < 10 ^ 63)
    (hs : trimChars s.toList = cs) (h : IsSpelling cs neg ip fs) (hfs : fs ≠ []) :
    exceedsUnsignedColumn M (.str s) max = ((toDouble (signedValue neg ip fs)).isFinite &&
      ((toDouble (signedValue neg ip fs)).lt (.fin 0) ||
        (toDouble max).lt (toDouble (signedValue neg ip fs)) ||
        decide ((max : ℚ) + 1 / 2 ≤ signedValue neg ip fs))) := by
  have hpart : exponentPart (trim s).toList = none := by
    simp only [trim, String.toList_ofList, hs, exponentPart, h.2.2.2]
    refine if_neg fun hall => ?_
    have hpoint : '.' ∈ pointText ip fs := by simp [pointText, hfs]
    exact absurd (List.all_eq_true.1 hall.2 _ hpoint) (by decide)
  have hread : M.bignumber (trim s) = some (.fin (signedValue neg ip fs)) := by
    rw [trim, hs]
    exact hM cs neg ip fs h
  have happrox : stringToNumber (trim s) = toDouble (signedValue neg ip fs) := by
    rw [trim, hs]
    exact stringToNumber_spelling h
  simp only [exceedsUnsignedColumn, Js.isNullish, Bool.false_eq_true, if_false, Js.toText_str, hpart,
    hread, happrox, JsNum.plus, roundSig_of_fits (fitsSig_half hmax), JsNum.le]

theorem lt_eq_false_of_le {x y : JsNum} (h : x.le y = true) : y.lt x = false := by
  rcases x with _ | (_ | _) | p <;> rcases y with _ | (_ | _) | q <;>
    simp_all [JsNum.le, JsNum.lt]

theorem toDouble_zero : toDouble 0 = .fin 0 := by
  simpa using toDouble_natCast (n := 0) (by decide)

theorem toDouble_lt_zero_eq_false {v : ℚ} (h : 0 ≤ v) : (toDouble v).lt (.fin 0) = false := by
  rw [← toDouble_zero]
  exact lt_eq_false_of_le (toDouble_mono h)

/-- A double below minus one half is below zero. -/
theorem toDouble_lt_zero {v : ℚ} (h : v ≤ -1) : (toDouble v).lt (.fin 0) = true := by
  have hone : toDouble (-1) = .fin (-1) := by decide
  have hle := toDouble_mono h
  rw [hone] at hle
  generalize toDouble v = x at hle
  cases x with
  | nan => cases hle
  | inf neg => exact hle
  | fin q =>
    have hq : q ≤ -1 := of_decide_eq_true hle
    exact decide_eq_true (by linarith)

/-- However an integer is spelled, it is compared exactly. -/
theorem exceedsUnsignedColumn_integer (hM : ReadsSpellings M) (hmax : max < 10 ^ 63)
    (hs : trimChars s.toList = cs) (h : IsSpelling cs neg ip fs) {n : ℤ}
    (hn : signedValue neg ip fs = n)
    (hfin : (toDouble (signedValue neg ip fs)).isFinite = true) :
    exceedsUnsignedColumn M (.str s) max =
      decide (signedValue neg ip fs < 0 ∨ (max : ℚ) < signedValue neg ip fs) := by
  by_cases hfs : fs = []
  · subst hfs
    exact exceedsUnsignedColumn_digits hs h
  · rw [exceedsUnsignedColumn_point hM hmax hs h hfs, hfin, Bool.true_and]
    generalize signedValue neg ip fs = v at hn
    rcases lt_or_ge v 0 with hv | hv
    · have hle : v ≤ -1 := by
        rw [hn] at hv ⊢
        have hn0 : n < 0 := by exact_mod_cast hv
        exact_mod_cast (show n ≤ -1 by omega)
      simp [toDouble_lt_zero hle, hv]
    · rw [toDouble_lt_zero_eq_false hv]
      rcases le_or_gt v max with hle | hlt
      · have hhalf : ¬ (max : ℚ) + 1 / 2 ≤ v := by linarith
        rw [lt_eq_false_of_le (toDouble_mono hle), decide_eq_false hhalf]
        simp [hv, hle]
      · have hhalf : (max : ℚ) + 1 / 2 ≤ v := by
          rw [hn] at hlt ⊢
          have hsucc : (max : ℤ) + 1 ≤ n := by
            have hcast : (max : ℤ) < n := by exact_mod_cast hlt
            omega
          have hle : (max : ℚ) + 1 ≤ n := by exact_mod_cast hsucc
          linarith
        simp only [decide_eq_true hhalf, Bool.or_true]
        exact (decide_eq_true (.inr hlt)).symm

/-- The largest expiration is rounded up to a power of two by a double, so that only the half
above it counts. -/
theorem exceedsUnsignedColumn_expiration (hM : ReadsSpellings M) (hs : trimChars s.toList = cs)
    (h : IsSpelling cs neg ip fs) (hfs : fs ≠ [])
    (hfin : (toDouble (signedValue neg ip fs)).isFinite = true)
    (h0 : 0 ≤ signedValue neg ip fs) : exceedsUnsignedColumn M (.str s) EXPIRATION_MAX =
      decide ((EXPIRATION_MAX : ℚ) + 1 / 2 ≤ signedValue neg ip fs) := by
  rw [exceedsUnsignedColumn_point hM (by decide) hs h hfs, hfin, toDouble_lt_zero_eq_false h0,
    Bool.true_and, Bool.false_or]
  by_cases hle : (EXPIRATION_MAX : ℚ) + 1 / 2 ≤ signedValue neg ip fs
  · rw [decide_eq_true hle, Bool.or_true]
  · have hpow : signedValue neg ip fs ≤ (2 : ℚ) ^ 64 := by
      have hmax : (EXPIRATION_MAX : ℚ) + 1 / 2 ≤ 2 ^ 64 := by norm_num [EXPIRATION_MAX]
      linarith
    have hsame : toDouble EXPIRATION_MAX = toDouble ((2 : ℚ) ^ 64) := by decide +kernel
    rw [hsame, lt_eq_false_of_le (toDouble_mono hpow), Bool.false_or]

/-! ### The checks' arithmetic -/

/-- **A product of 64 digits is floored exactly, and a bound is compared exactly with every integer
and, at the half above it, with every fraction.**  Numbers that no double holds read as zero in a
product, and are within bounds where they have a point. -/
theorem numeric_exact (M : MathJs) (hM : ReadsSpellings M) :
    (∀ a b p q decimals, isNonNegativeDecimal a = true → decimalText a = some p →
      isNonNegativeDecimal b = true → decimalText b = some q →
        FitsSig BIGNUMBER_PRECISION (readable p * readable q) →
          mulFloor M (.str a) (.str b) decimals = some (toFixed (flooredAt (wholeDecimals decimals)
            (readable (readable p * readable q)))) ∧
          ((toDouble p).isFinite = true → (toDouble q).isFinite = true →
            (toDouble (p * q)).isFinite = true →
              mulFloor M (.str a) (.str b) decimals =
                some (toFixed (flooredAt (wholeDecimals decimals) (p * q))) ∧
              flooredAt (wholeDecimals decimals) (p * q) ≤ p * q)) ∧
    (∀ s neg ip fs, IsSpelling (trimChars s.toList) neg ip fs →
      (∀ max, fs = [] → exceedsUnsignedColumn M (.str s) max =
        decide (signedValue neg ip fs < 0 ∨ (max : ℚ) < signedValue neg ip fs)) ∧
      (∀ max n, max < 10 ^ 63 → (toDouble (signedValue neg ip fs)).isFinite = true →
        signedValue neg ip fs = (n : ℤ) → exceedsUnsignedColumn M (.str s) max =
          decide (signedValue neg ip fs < 0 ∨ (max : ℚ) < signedValue neg ip fs)) ∧
      (fs ≠ [] → (toDouble (signedValue neg ip fs)).isFinite = true → 0 ≤ signedValue neg ip fs →
        exceedsUnsignedColumn M (.str s) EXPIRATION_MAX =
          decide ((EXPIRATION_MAX : ℚ) + 1 / 2 ≤ signedValue neg ip fs)) ∧
      (∀ max, max < 10 ^ 63 → fs ≠ [] → (toDouble (signedValue neg ip fs)).isFinite = false →
        exceedsUnsignedColumn M (.str s) max = false)) := by
  constructor
  · intro a b p q decimals ha hp hb hq hfit
    have hs : Spells a p := .inl ⟨ha, hp⟩
    have ht : Spells b q := .inl ⟨hb, hq⟩
    constructor
    · rw [mulFloor_of_spells hs ht, roundSig_of_fits hfit]
    · intro hp hq hpq
      have hsame : readable p * readable q = p * q := by simp only [readable, hp, hq, if_true]
      exact ⟨mulFloor_exact hs ht decimals hp hq hpq (hsame ▸ hfit), flooredAt_le _ _⟩
  · intro s neg ip fs h
    refine ⟨?_, ?_, ?_, ?_⟩
    · rintro max rfl
      exact exceedsUnsignedColumn_digits rfl h
    · intro max n hmax hfin hn
      exact exceedsUnsignedColumn_integer hM hmax rfl h hn hfin
    · intro hfs hfin h0
      exact exceedsUnsignedColumn_expiration hM rfl h hfs hfin h0
    · intro max hmax hfs hfin
      rw [exceedsUnsignedColumn_point hM hmax rfl h hfs, hfin, Bool.false_and]

theorem readsSpellings_plainMath : ReadsSpellings plainMath := by
  intro cs neg ip fs ⟨hip, hne, hfs, hsplit⟩
  simp only [plainMath, decimalText, String.toList_ofList, hsplit,
    unsignedDecimal_pointText hip hne hfs, Option.map_some]
  cases neg <;> rfl

theorem numeric_exact_example :
    mulFloor plainMath (.str "137.99999999999") (.str "1") (.num (.fin 0)) =
        some (toFixed (flooredAt 0 (137.99999999999 * 1))) ∧
      exceedsUnsignedColumn plainMath (.str "+0018446744073709551616.00") EXPIRATION_MAX =
        decide ((18446744073709551616 : ℚ) < 0 ∨ (EXPIRATION_MAX : ℚ) < 18446744073709551616) := by
  constructor
  · exact (((numeric_exact plainMath readsSpellings_plainMath).1 "137.99999999999" "1"
      137.99999999999 1 (.num (.fin 0)) (by decide) (by decide +kernel) (by decide)
      (by decide +kernel) (by decide +kernel)).2 (by decide +kernel) (by decide)
      (by decide +kernel)).1
  · have hvalue : signedValue false "0018446744073709551616".toList ['0', '0'] =
        18446744073709551616 := by decide +kernel
    have hread := ((numeric_exact plainMath readsSpellings_plainMath).2
      "+0018446744073709551616.00" false "0018446744073709551616".toList ['0', '0']
      ⟨by simp [AllDigits], by decide, by simp [AllDigits], by decide⟩).2.1 EXPIRATION_MAX
      18446744073709551616 (by decide) (by decide +kernel) (by rw [hvalue]; norm_num)
    rwa [hvalue] at hread

/-- A fraction above the bound is not reported. -/
theorem numeric_not_exact :
    exceedsUnsignedColumn plainMath (.str "18446744073709551615.4") EXPIRATION_MAX = false ∧
      (EXPIRATION_MAX : ℚ) < 18446744073709551615.4 := by
  constructor <;> decide +kernel

end Numeric

end XChainSdk
